import CycleSched.Settings.Basic
import CycleSched.Text.Letter
import CycleSched.Yaml.Token
import CycleSched.Text.Base64
import CycleSched.Text.Utf8

/-!
# Writing settings as YAML

A setting tree is given its type by writing it out as a block document and reading that back,
so the written form decides what the reading sees: each scalar's text and the line each node
starts on.

* Tables are block mappings, one key per line, keys sorted: numbers and booleans by value,
  texts in natural order (letters by code point, runs of digits by value), kinds apart by a
  fixed rank. Lists are block sequences. Empty tables and lists are `{}` and `[]`.
* A collection under a key starts on the next line, four columns further in than the key's
  mapping; under a list dash it starts on the dash's line, two columns after the dash.
* A text that holds a line feed is a literal block when its characters allow one. Its header
  is written with no line break after it, so line breaks at the very start of the text are
  lost. Another text is plain when it reads back as the same text, else single quoted when its
  characters allow, else double quoted with escapes.
* A text holding stray bytes is not UTF-8, so it is written as its bytes in base64 under the
  tag `!!binary`: plain when the base64 is shorter than 70 characters, else a literal block of
  lines of 70 characters.
* A key longer than 128 bytes (its tag counted) or spanning lines is written after `? `, its
  value after `: ` on a line of its own.
-/

namespace CycleSched.Yaml

/-- How a scalar is written. -/
inductive Written where
  | plain
  | singleQuoted
  | doubleQuoted
  | literal
  deriving DecidableEq

/-- What the characters of a text allow. -/
structure ScalarShape where
  multiline : Bool
  plain : Bool
  singleQuoted : Bool
  block : Bool

/-- A character the writer shows as itself: line feed, printable ASCII, and the code points
from `U+00A0` to `U+FFFD` except surrogates and the byte order mark. -/
def isShown (c : Char) : Bool :=
  let n := c.toNat
  n = 0x0A || (0x20 ≤ n && n ≤ 0x7E) || (0xA0 ≤ n && n ≤ 0xD7FF) ||
    (0xE000 ≤ n && n ≤ 0xFFFD && n != 0xFEFF)

/-- What the scan of a text has found so far. -/
structure Findings where
  blockIndicator : Bool := false
  flowIndicator : Bool := false
  lineBreak : Bool := false
  special : Bool := false
  tab : Bool := false
  leadingSpace : Bool := false
  leadingBreak : Bool := false
  trailingSpace : Bool := false
  trailingBreak : Bool := false
  breakSpace : Bool := false
  spaceBreak : Bool := false
  previousSpace : Bool := false
  previousBreak : Bool := false

/-- Scans a text character by character: indicators that would start or split a plain scalar,
line breaks, tabs, characters that must be escaped, and spaces next to line breaks. -/
def scanShape : List Char → Bool → Bool → Findings → Findings
  | [], _, _, f => f
  | c :: rest, afterBlank, first, f =>
    let beforeBlank := match rest with
      | [] => true
      | d :: _ => d = ' ' || d = '\t'
    let (block, flow) :=
      if first then
        if "#,[]\x7b\x7d&*!|>'\"%@`".contains c then (true, true)
        else if c = '?' || c = ':' then (beforeBlank, true)
        else if c = '-' then (beforeBlank, beforeBlank)
        else (false, false)
      else if ",?[]\x7b\x7d".contains c then (false, true)
      else if c = ':' then (beforeBlank, true)
      else if c = '#' then (afterBlank, afterBlank)
      else (false, false)
    let f := { f with
      blockIndicator := f.blockIndicator || block
      flowIndicator := f.flowIndicator || flow
      tab := f.tab || c = '\t'
      special := f.special || (c != '\t' && !isShown c) }
    let f :=
      if c = ' ' then
        { f with
          leadingSpace := f.leadingSpace || first
          trailingSpace := f.trailingSpace || rest.isEmpty
          breakSpace := f.breakSpace || f.previousBreak
          previousSpace := true
          previousBreak := false }
      else if isBreak c then
        { f with
          lineBreak := true
          leadingBreak := f.leadingBreak || first
          trailingBreak := f.trailingBreak || rest.isEmpty
          spaceBreak := f.spaceBreak || f.previousSpace
          previousSpace := false
          previousBreak := true }
      else { f with previousSpace := false, previousBreak := false }
    scanShape rest (isBlank c || isBreak c || c = '\x00') false f

/-- What the characters of a text allow it to be written as. -/
def shapeOf (s : String) : ScalarShape :=
  let cs := s.toList
  if cs.isEmpty then ⟨false, true, true, false⟩
  else
    let marker := s.startsWith "---" || s.startsWith "..."
    let f := scanShape cs true true { blockIndicator := marker, flowIndicator := marker }
    let edges := f.leadingSpace || f.leadingBreak || f.trailingSpace || f.trailingBreak
    let inner := f.spaceBreak || f.tab || f.special
    { multiline := f.lineBreak
      plain := !(edges || f.breakSpace || inner || f.lineBreak || f.blockIndicator)
      singleQuoted := !(f.breakSpace || inner)
      block := !(f.trailingSpace || f.spaceBreak || f.special) }

/-- The style a scalar is written in: the one asked for, unless its characters or its place
forbid it. A key spanning lines is double quoted; an empty key and a text that cannot be plain
are single quoted; what cannot be single quoted or a block is double quoted. -/
def chooseStyle (asked : Written) (shape : ScalarShape) (empty key : Bool) : Written :=
  let s := if key && shape.multiline then .doubleQuoted else asked
  let s := if s = .plain && (!shape.plain || (empty && key)) then .singleQuoted else s
  let s := if s = .singleQuoted && !shape.singleQuoted then .doubleQuoted else s
  if s = .literal && (!shape.block || key) then .doubleQuoted else s

/-- A sexagesimal number such as `1:30` or `-2:05:10.5`, which some readers take for a float. -/
def isSexagesimal (s : String) : Bool :=
  let cs := s.toList
  let cs := match cs with
    | '+' :: r | '-' :: r => r
    | r => r
  let digitOrBar (c : Char) := c.isDigit || c = '_'
  match cs with
  | c :: rest =>
    c.isDigit &&
      let rest := rest.dropWhile digitOrBar
      -- one or more groups of a colon and one or two digits, the first below 6 when two
      let rec groups : Nat → List Char → Bool → Bool
        | 0, _, _ => false
        | fuel + 1, ':' :: a :: b :: r, _ =>
          if a.isDigit && b.isDigit && a ≤ '5' then groups fuel r true
          else if a.isDigit then groups fuel (b :: r) true
          else false
        | fuel + 1, ':' :: [a], _ => a.isDigit && (groups fuel [] true)
        | _, [], seen => seen
        | _, '.' :: r, seen => seen && r.all digitOrBar
        | _, _, _ => false
      groups (rest.length + 1) rest false
  | [] => false

/-- The words that some readers take for booleans. -/
def isOldBoolWord (s : String) : Bool :=
  ["y", "Y", "yes", "Yes", "YES", "on", "On", "ON", "n", "N", "no", "No", "NO", "off", "Off",
    "OFF"].contains s

/-- The style asked for a text: a literal block when it holds a line feed, plain when it reads
back as the same text, else double quoted. -/
def askedStyle (s : String) : Written :=
  if s.contains '\n' then .literal
  else if plainTag s == "!!str" && !isSexagesimal s && !isOldBoolWord s then .plain
  else .doubleQuoted

/-- A float in the shortest general form, with the YAML words for infinities and NaN. -/
def floatText (f : Float) : String :=
  match Decimal.general f with
  | "+Inf" => ".inf"
  | "-Inf" => "-.inf"
  | "NaN" => ".nan"
  | t => t

/-- The base64 of bytes as a binary scalar holds it: once it reaches 70 characters, in lines
of 70 characters, each ended by a line feed. -/
def binaryText (bytes : List UInt8) : String :=
  let enc := (Text.encodeBase64 bytes).toList
  if enc.length < 70 then String.ofList enc
  else String.join (lines enc.length enc)
where
  /-- Lines of 70 characters, each ended by a line feed. -/
  lines : Nat → List Char → List String
    | 0, _ => []
    | _, [] => []
    | fuel + 1, cs => String.ofList (cs.take 70 ++ ['\n']) :: lines fuel (cs.drop 70)

/-- The text of a scalar, the style asked for it, and the tag written before it (empty for
none). -/
def Scalar.written : Scalar → String × Written × String
  | .null => ("null", .plain, "")
  | .bool b => (if b then "true" else "false", .plain, "")
  | .int i => (toString i, .plain, "")
  | .float f => (floatText f, .plain, "")
  | .time t => (t.toText, .plain, "")
  | .str s =>
    if Text.Utf8.isWellFormed s then (s, askedStyle s, "")
    else
      let t := binaryText (Text.Utf8.toBytes s)
      (t, if t.contains '\n' then .literal else .plain, "!!binary")

/-- The value of a run of decimal digits at the head of a list, in wrapping 64-bit arithmetic
and starting from `start`, and the run's length. -/
def digitRun (cs : List Char) (start : Int) : Int × Nat :=
  (cs.takeWhile Text.isDecimalDigit).foldl
    (fun (v, n) c => (Int.bmod (v * 10 + (c.toNat - 48 : Nat)) (Nat.pow 2 64), n + 1)) (start, 0)

/-- Natural order of texts: letters against letters by code point; a letter against anything
else by whether digits came just before; runs of digits by value, then by length. -/
def textBefore (a b : String) : Bool :=
  go a.toList b.toList false false
where
  /-- Compares the rests of two texts, knowing whether the last equal character was a digit and
  whether the run of equal digits before holds one that is not zero. -/
  go : List Char → List Char → Bool → Bool → Bool
    | [], [], _, _ => false
    | [], _ :: _, _, _ => true
    | _ :: _, [], _, _ => false
    | x :: xs, y :: ys, digits, nonzero =>
      if x = y then
        let d := Text.isDecimalDigit x
        go xs ys d (d && (nonzero || x != '0'))
      else
        let xl := Text.isLetter x
        let yl := Text.isLetter y
        if xl && yl then x < y
        else if xl || yl then (if digits then xl else yl)
        else
          let start : Int := if (x = '0' || y = '0') && nonzero then 1 else 0
          let (av, al) := digitRun (x :: xs) start
          let (bv, bl) := digitRun (y :: ys) start
          if av != bv then av < bv
          else if al != bl then al < bl
          else x < y

/-- The rank of a key's kind when kinds differ. -/
def Scalar.kindRank : Scalar → Nat
  | .bool _ => 1
  | .int i => if i < Int.pow 2 63 then 2 else 11
  | .float _ => 14
  | .null => 20
  | .str _ => 24
  | .time _ => 25

/-- A number for a key that is a number or a boolean. -/
def Scalar.keyNumber : Scalar → Option Float
  | .bool b => some (if b then 1 else 0)
  | .int i => some (Float.ofInt i)
  | .float f => some f
  | _ => none

/-- The order of keys: numbers and booleans by value, then by kind, then as their kind orders
them; texts in natural order; otherwise by kind. -/
def keyBefore (a b : Scalar) : Bool :=
  match a.keyNumber, b.keyNumber with
  | some x, some y =>
    if x != y then x < y
    else if a.kindRank != b.kindRank then a.kindRank < b.kindRank
    else match a, b with
      | .int i, .int j => i < j
      | .float f, .float g => f < g
      | .bool p, .bool q => !p && q
      | _, _ => false
  | _, _ =>
    match a, b with
    | .str s, .str t => textBefore s t
    | _, _ => a.kindRank < b.kindRank

/-- Sorts by insertion: each item moves back past the items it comes before. -/
def insertionSort {α : Type} (before : α → α → Bool) (xs : List α) : List α :=
  (xs.foldl (fun acc x => insertBack x acc) []).reverse
where
  /-- Puts an item into a sorted list held last item first. -/
  insertBack (x : α) : List α → List α
    | [] => [x]
    | y :: ys => if before x y then y :: insertBack x ys else x :: y :: ys

/-- What a node is written under: nothing (it is the document), a list dash, or a mapping. -/
inductive Under where
  | document
  | item
  | mapping
  deriving DecidableEq

/-- The state of writing: the text so far, the column, whether the last thing written was a
blank and whether the line holds only indentation so far, and the current indentation with the
ones to come back to. -/
structure Pen where
  out : String := ""
  column : Nat := 0
  whitespace : Bool := true
  indention : Bool := true
  indent : Int := -1
  indents : List Int := []

namespace Pen

/-- Writes a character. -/
def put (c : Char) : StateM Pen Unit :=
  modify fun p => { p with out := p.out.push c, column := p.column + 1 }

/-- Starts a new line. -/
def newLine : StateM Pen Unit :=
  modify fun p => { p with out := p.out.push '\n', column := 0, indention := true }

/-- Writes a line break of a text: a line feed as a new line, another break as itself. -/
def putBreak (c : Char) : StateM Pen Unit :=
  if c = '\n' then newLine
  else modify fun p => { p with out := p.out.push c, column := 0, indention := true }

/-- Moves to the current indentation, on a new line unless the line holds only indentation up
to there. -/
def toIndent : StateM Pen Unit := do
  let p ← get
  let ind := p.indent.toNat
  if !p.indention || p.column > ind || (p.column == ind && !p.whitespace) then newLine
  let p ← get
  for _ in [p.column:ind] do put ' '
  modify fun p => { p with whitespace := true }

/-- Writes an indicator, after a space when one is needed. -/
def indicator (s : String) (spaceBefore isBlank isIndention : Bool) : StateM Pen Unit := do
  if spaceBefore && !(← get).whitespace then put ' '
  for c in s.toList do put c
  modify fun p => { p with whitespace := isBlank, indention := p.indention && isIndention }

/-- Goes one level in: to column 0 (or 4 for a scalar) at the top, two columns past a list
dash, else to the next multiple of four. -/
def deeper (scalar : Bool) (under : Under) : StateM Pen Unit :=
  modify fun p =>
    let ind :=
      if p.indent < 0 then (if scalar then 4 else 0)
      else if under = .item then p.indent + 2
      else 4 * ((p.indent + 4) / 4)
    { p with indents := p.indent :: p.indents, indent := ind }

/-- Comes back one level. -/
def back : StateM Pen Unit :=
  modify fun p => match p.indents with
    | i :: rest => { p with indent := i, indents := rest }
    | [] => p

/-- Writes a plain scalar. -/
def plain (s : String) : StateM Pen Unit := do
  if !s.isEmpty && !(← get).whitespace then put ' '
  for c in s.toList do put c
  modify fun p => { p with whitespace := p.whitespace && s.isEmpty, indention := false }

/-- Writes a single-quoted scalar: quotes doubled, line breaks as they are, and the text after
a line break at the indentation. -/
def singleQuoted (s : String) : StateM Pen Unit := do
  indicator "'" true false false
  let mut breaks := false
  for c in s.toList do
    if isBreak c then
      if !breaks && c = '\n' then newLine
      putBreak c
      breaks := true
    else
      if breaks then toIndent
      if c = '\'' then put '\''
      put c
      modify fun p => { p with indention := false }
      breaks := false
  if breaks then toIndent
  indicator "'" false false false
  modify fun p => { p with whitespace := false, indention := false }

/-- The escape of a character inside double quotes, or nothing when it stands as itself. -/
def escape (c : Char) : Option String :=
  let n := c.toNat
  let hex (width : Nat) : String :=
    String.ofList ((List.range width).reverse.map fun k =>
      let d := n / Nat.pow 16 k % 16
      Char.ofNat (if d < 10 then 48 + d else 55 + d))
  if isShown c && !isBreak c && c != '"' && c != '\\' then none
  else some <| match n with
    | 0x00 => "\\0"
    | 0x07 => "\\a"
    | 0x08 => "\\b"
    | 0x09 => "\\t"
    | 0x0A => "\\n"
    | 0x0B => "\\v"
    | 0x0C => "\\f"
    | 0x0D => "\\r"
    | 0x1B => "\\e"
    | 0x22 => "\\\""
    | 0x5C => "\\\\"
    | 0x85 => "\\N"
    | 0xA0 => "\\_"
    | 0x2028 => "\\L"
    | 0x2029 => "\\P"
    | _ =>
      if n ≤ 0xFF then "\\x" ++ hex 2
      else if n ≤ 0xFFFF then "\\u" ++ hex 4
      else "\\U" ++ hex 8

/-- Writes a double-quoted scalar on one line, with escapes. -/
def doubleQuoted (s : String) : StateM Pen Unit := do
  indicator "\"" true false false
  for c in s.toList do
    match escape c with
    | some e => for d in e.toList do put d
    | none => put c
  indicator "\"" false false false
  modify fun p => { p with whitespace := false, indention := false }

/-- The chomping indicator of a literal block: strip when the text does not end in a line
break, keep when it is one line break or ends in two, else none. -/
def chomping (s : String) : String :=
  match s.toList.reverse with
  | [] => "-"
  | c :: rest =>
    if !isBreak c then "-"
    else match rest with
      | [] => "+"
      | d :: _ => if isBreak d then "+" else ""

/-- Writes a literal block scalar: the header, then each line at the indentation. -/
def literal (s : String) : StateM Pen Unit := do
  indicator "|" true false false
  match s.toList with
  | c :: _ => if c = ' ' || isBreak c then indicator "4" false false false
  | [] => pure ()
  let chomp := chomping s
  if !chomp.isEmpty then indicator chomp false false false
  modify fun p => { p with whitespace := true }
  let mut breaks := true
  for c in s.toList do
    if isBreak c then
      putBreak c
      breaks := true
    else
      if breaks then toIndent
      put c
      modify fun p => { p with indention := false }
      breaks := false

/-- Writes a scalar at a place, as a key or not, in the style its text and place allow. -/
def scalar (s : Scalar) (key : Bool) (under : Under) : StateM Pen Unit := do
  let (text, asked, tag) := s.written
  let style := chooseStyle asked (shapeOf text) text.isEmpty key
  deeper true under
  if !tag.isEmpty then indicator tag true false false
  match style with
  | .plain => plain text
  | .singleQuoted => singleQuoted text
  | .doubleQuoted => doubleQuoted text
  | .literal => literal text
  back

/-- Whether a key is written in the short form `key: value`: on one line and at most 128
bytes with its tag. -/
def simpleKey (k : Scalar) : Bool :=
  let (text, _, tag) := k.written
  !(shapeOf text).multiline && text.utf8ByteSize + tag.utf8ByteSize ≤ 128

/-- Writes one entry of a block mapping, the value written by `value`. -/
def entry (k : Scalar) (value : StateM Pen Unit) : StateM Pen Unit := do
  toIndent
  if simpleKey k then
    scalar k true .mapping
    indicator ":" false false false
  else
    indicator "?" true false true
    scalar k false .mapping
    toIndent
    indicator ":" true false true
  value

/-- Writes a setting at a place. -/
def setting (v : Setting) (under : Under) : StateM Pen Unit :=
  match v with
  | .leaf s => scalar s false under
  | .list items =>
    if items.isEmpty then do
      indicator "[" true true false
      indicator "]" false false false
    else do
      deeper false under
      for _h : item in items do
        toIndent
        indicator "-" true false true
        setting item .item
      back
  | .table entries =>
    if entries.isEmpty then do
      indicator "\x7b" true true false
      indicator "\x7d" false false false
    else do
      deeper false under
      let sorted := insertionSort (fun a b => textBefore a.1.1 b.1.1) entries.attach
      for ⟨(k, item), _⟩ in sorted do
        entry (.str k) (setting item .mapping)
      back
  | .keyed entries =>
    if entries.isEmpty then do
      indicator "\x7b" true true false
      indicator "\x7d" false false false
    else do
      deeper false under
      let sorted := insertionSort (fun a b => keyBefore a.1.1 b.1.1) entries.attach
      for ⟨(k, item), _⟩ in sorted do
        entry k (setting item .mapping)
      back
termination_by sizeOf v
decreasing_by
  all_goals first
    | have h := List.sizeOf_lt_of_mem ‹_ ∈ items›; simp_all; omega
    | have h := List.sizeOf_lt_of_mem ‹_ ∈ entries›; simp_all; omega

end Pen

/-- A setting written as a YAML document. -/
def render (v : Setting) : String :=
  let run : StateM Pen Unit := do
    Pen.setting v .document
    modify fun p => { p with indent := -1 }
    Pen.toIndent
  (run.run {}).2.out

end CycleSched.Yaml
