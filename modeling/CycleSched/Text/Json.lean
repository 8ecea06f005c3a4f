import CycleSched.Text.Quoted

/-!
# Reading JSON values

A JSON text is checked character by character; the first character that cannot continue the
text is reported with what was expected there, and a text that stops early is reported as
such. A character in a report is shown in single quotes, escaped as in a quoted text when it is
not printable. A malformed escape sequence in a string is shown by its bytes: the backslash and
the next byte, or for a `\u` escape the backslash and the five bytes after it, or the rest of
the text when it is shorter; a sequence that may still be completed by more text is a text that
stops early.

Only the shape of a value is kept, with the text of each number, which is what reading a list
of integers needs.
-/

namespace CycleSched.Text.Json

/-- The shape of a JSON value. -/
inductive Shape where
  | null
  | bool
  | number (text : String)
  | string
  | array (items : List Shape)
  | object
  deriving Repr, Inhabited

/-- The report for a text that stops early. -/
def endOfInput : String := "unexpected end of JSON input"

/-- A character shown in single quotes. -/
def showChar (c : Char) : String :=
  if c = '\'' then "'\\''"
  else if c = '"' then "'\"'"
  else "'" ++ String.ofList (quoteChar c) ++ "'"

/-- The report for a character that cannot come where it stands. -/
def invalid (c : Char) (context : String) : String :=
  "invalid character " ++ showChar c ++ " " ++ context

/-- Blank characters between tokens. -/
def isSpace (c : Char) : Bool := c = ' ' || c = '\t' || c = '\n' || c = '\r'

/-- The rest of a text after its leading blanks. -/
def skipSpace (cs : List Char) : List Char := cs.dropWhile isSpace

/-- Reads the letters of a literal after its first one. -/
def literal (word : String) (shape : Shape) : List Char → List Char → Except String (Shape × List Char)
  | [], cs => .ok (shape, cs)
  | w :: ws, [] => let _ := w; let _ := ws; .error endOfInput
  | w :: ws, c :: cs =>
    if c = w then literal word shape ws cs
    else .error (invalid c s!"in literal {word} (expecting {showChar w})")

/-- Reads a run of ASCII digits. -/
def digits (cs : List Char) : List Char × List Char :=
  (cs.takeWhile Char.isDigit, cs.dropWhile Char.isDigit)

/-- Reads the fraction and exponent of a number after its integer part. -/
def numberTail (cs : List Char) : Except String (List Char × List Char) := do
  let (frac, cs) ← match cs with
    | '.' :: r =>
      match r with
      | [] => throw endOfInput
      | c :: _ =>
        if c.isDigit then
          let (ds, rest) := digits r
          pure ('.' :: ds, rest)
        else throw (invalid c "in numeric literal")
    | _ => pure ([], cs)
  match cs with
  | e :: r =>
    if e = 'e' || e = 'E' then
      let (sign, r) := match r with
        | s :: r' => if s = '+' || s = '-' then ([s], r') else ([], r)
        | [] => ([], r)
      match r with
      | [] => throw endOfInput
      | c :: _ =>
        if c.isDigit then
          let (ds, rest) := digits r
          pure (frac ++ e :: sign ++ ds, rest)
        else throw (invalid c "in numeric literal")
    else pure (frac, cs)
  | [] => pure (frac, cs)

/-- Reads a number. -/
def number (cs : List Char) : Except String (Shape × List Char) := do
  let (sign, cs) := match cs with
    | '-' :: r => (['-'], r)
    | r => ([], r)
  match cs with
  | [] => throw endOfInput
  | c :: r =>
    let (intPart, rest) ←
      if c = '0' then pure (['0'], r)
      else if c.isDigit then
        let (ds, rest) := digits r
        pure (c :: ds, rest)
      else throw (invalid c "in numeric literal")
    let (tail, rest) ← numberTail rest
    return (.number (String.ofList (sign ++ intPart ++ tail)), rest)

/-- A hexadecimal digit. -/
def isHex (c : Char) : Bool := c.isDigit || ('a' ≤ c && c ≤ 'f') || ('A' ≤ c && c ≤ 'F')

/-- The report for a malformed escape sequence, given its bytes. It is shown between backquotes,
or quoted when it holds a backquote, a space, a malformed byte or a character that is not
printable. -/
def badEscape (what : List UInt8) : String :=
  let shown := if (Utf8.chars what.length what).any fun c =>
      c = '\x60' || c = ' ' || c = '\uFFFD' || !isPrintable c then quoteBytes what
    else "\x60" ++ Utf8.text what ++ "\x60"
  "invalid escape sequence " ++ shown ++ " in string"

/-- The first `n` UTF-8 bytes of some characters. -/
def leadingBytes (n : Nat) (cs : List Char) : List UInt8 :=
  (Utf8.toBytes (String.ofList (cs.take n))).take n

/-- Reads the body of a string after its opening quote. -/
def stringBody : Nat → List Char → Except String (List Char)
  | 0, _ => .error endOfInput
  | _, [] => .error endOfInput
  | fuel + 1, c :: cs =>
    if c = '"' then .ok cs
    else if c = '\\' then
      match cs with
      | [] => .error endOfInput
      | e :: r =>
        if "\"\\/bfnrt".contains e then stringBody fuel r
        else if e = 'u' then
          let hex := r.take 4
          if hex.all isHex then
            if hex.length = 4 then stringBody fuel (r.drop 4) else .error endOfInput
          else .error (badEscape (leadingBytes 6 (c :: cs)))
        else .error (badEscape (leadingBytes 2 (c :: cs)))
    else if c.toNat < 0x20 then .error (invalid c "in string")
    else stringBody fuel cs

mutual

/-- Reads a value after optional blanks. -/
def value : Nat → List Char → Except String (Shape × List Char)
  | 0, _ => .error endOfInput
  | fuel + 1, cs =>
    match skipSpace cs with
    | [] => .error endOfInput
    | c :: r =>
      if c = '{' then object fuel r
      else if c = '[' then array fuel r
      else if c = '"' then (stringBody r.length r).map fun rest => (.string, rest)
      else if c = '-' || c.isDigit then number (c :: r)
      else if c = 't' then literal "true" .bool ['r', 'u', 'e'] r
      else if c = 'f' then literal "false" .bool ['a', 'l', 's', 'e'] r
      else if c = 'n' then literal "null" .null ['u', 'l', 'l'] r
      else .error (invalid c "looking for beginning of value")

/-- Reads the elements of an array after its opening bracket. -/
def array : Nat → List Char → Except String (Shape × List Char)
  | 0, _ => .error endOfInput
  | fuel + 1, cs =>
    match skipSpace cs with
    | [] => .error endOfInput
    | ']' :: r => .ok (.array [], r)
    | _ => elements fuel [] cs

/-- Reads array elements from the next one on. -/
def elements : Nat → List Shape → List Char → Except String (Shape × List Char)
  | 0, _, _ => .error endOfInput
  | fuel + 1, acc, cs => do
    let (v, r) ← value fuel cs
    match skipSpace r with
    | [] => throw endOfInput
    | ',' :: r' => elements fuel (v :: acc) r'
    | ']' :: r' => return (.array (v :: acc).reverse, r')
    | c :: _ => throw (invalid c "after array element")

/-- Reads the members of an object after its opening brace. -/
def object : Nat → List Char → Except String (Shape × List Char)
  | 0, _ => .error endOfInput
  | fuel + 1, cs =>
    match skipSpace cs with
    | [] => .error endOfInput
    | '}' :: r => .ok (.object, r)
    | _ => members fuel cs

/-- Reads object members from the next key on. -/
def members : Nat → List Char → Except String (Shape × List Char)
  | 0, _ => .error endOfInput
  | fuel + 1, cs => do
    let r ← match skipSpace cs with
      | [] => throw endOfInput
      | '"' :: r => stringBody r.length r
      | c :: _ => throw (invalid c "looking for beginning of object key string")
    let r ← match skipSpace r with
      | [] => throw endOfInput
      | ':' :: r => pure r
      | c :: _ => throw (invalid c "after object key")
    let (_, r) ← value fuel r
    match skipSpace r with
    | [] => throw endOfInput
    | ',' :: r' => members fuel r'
    | '}' :: r' => return (.object, r')
    | c :: _ => throw (invalid c "after object key:value pair")

end

/-- Reads a whole JSON text. -/
def read (s : String) : Except String Shape := do
  let cs := s.toList
  -- each opening bracket spends at most three steps of fuel
  let (v, rest) ← value (3 * cs.length + 3) cs
  match skipSpace rest with
  | [] => return v
  | c :: _ => throw (invalid c "after top-level value")

/-- The name of a shape in a report on a value of the wrong type. -/
def Shape.kindName : Shape → String
  | .null => "null"
  | .bool => "bool"
  | .number _ => "number"
  | .string => "string"
  | .array _ => "array"
  | .object => "object"

/-- Reads one integer of a list: a number without fraction or exponent that fits a 64-bit word;
`null` reads as zero. A value of another kind is reported by its kind, a number by its text. -/
def Shape.integer? : Shape → Except String Int
  | .null => .ok 0
  | .number t =>
    let ok := match t.toList with
      | '-' :: ds => !ds.isEmpty && ds.all Char.isDigit
      | ds => !ds.isEmpty && ds.all Char.isDigit
    let magnitude : Int := ((t.toList.filter Char.isDigit).foldl (fun a c => a * 10 + (c.toNat - 48)) 0 : Nat)
    let n : Int := if t.startsWith "-" then -magnitude else magnitude
    if ok && -Int.pow 2 63 ≤ n && n < Int.pow 2 63 then .ok n
    else .error s!"number {t}"
  | v => .error v.kindName

/-- Reads the elements of a list of integers; the first element of a wrong kind is reported with
its position in the list. -/
def integers (items : List Shape) : Except String (List Int) :=
  (items.zipIdx.mapM fun ((v : Shape), (i : Nat)) => v.integer?.mapError fun kind => (kind, i)).mapError
    fun ((kind : String), (i : Nat)) => s!"json: cannot unmarshal {kind} into .{i} of type int"

/-- Reads a JSON list of integers; `null` is the empty list. The first value of a wrong type is
reported. -/
def readIntList (s : String) : Except String (List Int) := do
  match ← read s with
  | .null => return []
  | .array items => integers items
  | v => throw s!"json: cannot unmarshal {v.kindName} into Go value of type []int"

end CycleSched.Text.Json
