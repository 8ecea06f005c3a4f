import CycleSched.Text.Quoted
import CycleSched.Text.Blank

/-!
# Graph tokens

A graph line is made of task references (`foo[-P1D]:fail?`), the operators `&`, `|` and `=>`,
and parentheses. Blanks and tabs separate tokens. A task name is a run of letters, digits and
`_ - + % @`, not starting with a sign; it may carry a cycle point offset in brackets, an output
qualifier after a colon, and a `?` marking the reference optional.
-/

namespace CycleSched.Graph

/-- A task reference as written in a graph line. -/
structure TaskRef where
  name : String
  /-- The text between the brackets, trimmed, when there are brackets. -/
  offset : Option String := none
  /-- The output named after the colon; empty when there is none. -/
  qualifier : String := ""
  optional : Bool := false
  deriving DecidableEq, Repr

/-- The reference written back: name, `[offset]`, `:qualifier`, `?`. -/
def TaskRef.toText (r : TaskRef) : String :=
  r.name ++ (match r.offset with | some o => "[" ++ o ++ "]" | none => "") ++
    (if r.qualifier.isEmpty then "" else ":" ++ r.qualifier) ++ (if r.optional then "?" else "")

/-- A token of a graph line. -/
inductive Token where
  | ref (r : TaskRef)
  | and
  | or
  | lparen
  | rparen
  | arrow
  deriving DecidableEq, Repr

/-- A character that may stand in a task or output name. -/
def isNameChar (c : Char) : Bool :=
  c = '_' || c = '-' || c = '+' || c = '%' || c = '@' || (c.isAlpha && c.toNat < 128) ||
    c.isDigit

/-- The first byte of a character's UTF-8 encoding, read as a character of its own: lines are
scanned byte by byte, so a refused character is reported by its first byte. -/
def leadByteChar (c : Char) : Char :=
  let n := c.toNat
  if n < 0x80 then c
  else if n < 0x800 then Char.ofNat (0xC0 + n / 0x40)
  else if n < 0x10000 then Char.ofNat (0xE0 + n / 0x1000)
  else Char.ofNat (0xF0 + n / 0x40000)

theorem length_dropWhile_le {α : Type} (p : α → Bool) (l : List α) :
    (l.dropWhile p).length ≤ l.length := by
  induction l with
  | nil => simp
  | cons a l ih =>
    simp only [List.dropWhile]
    split <;> simp <;> omega

/-- Reads the output qualifier and the `?` after a task name, from `cs`. -/
def readTail (name : String) (cs : List Char) :
    Except String (String × Bool × { r : List Char // r.length ≤ cs.length }) :=
  let (qualifier, rest, missing) : String × { r : List Char // r.length ≤ cs.length } × Bool :=
    if cs.head? == some ':' then
      let q := cs.tail.takeWhile isNameChar
      (String.ofList q, ⟨cs.tail.dropWhile isNameChar, by
        have := length_dropWhile_le isNameChar cs.tail; simp at this ⊢; omega⟩, q.isEmpty)
    else ("", ⟨cs, Nat.le_refl _⟩, false)
  if missing then .error s!"missing output name after {Text.quote name}:"
  else
    match rest with
    | ⟨'?' :: more, h⟩ => .ok (qualifier, true, ⟨more, by simp at h; omega⟩)
    | r => .ok (qualifier, false, r)

/-- Reads the bracketed offset after a task name, from `cs`. -/
def readOffset (name : String) (cs : List Char) :
    Except String (Option String × { r : List Char // r.length ≤ cs.length }) :=
  if cs.head? == some '[' then
    let more := cs.tail
    match hs : more.dropWhile (· != ']') with
    | [] => .error s!"unterminated cycle point offset after {Text.quote name}"
    | _ :: after =>
      let inside := Text.trimBlank (String.ofList (more.takeWhile (· != ']')))
      if inside.isEmpty then .error s!"empty cycle point offset on {Text.quote name}"
      else .ok (some inside, ⟨after, by
        have := length_dropWhile_le (· != ']') more
        rw [hs] at this; simp [more] at this ⊢; omega⟩)
  else .ok (none, ⟨cs, Nat.le_refl _⟩)

/-- Reads a task reference whose name starts with `c` and goes on in `rest`; returns what
follows it. -/
def readRef (c : Char) (rest : List Char) :
    Except String (TaskRef × { r : List Char // r.length ≤ rest.length }) :=
  let name := String.ofList (c :: rest.takeWhile isNameChar)
  let after := rest.dropWhile isNameChar
  have hafter : after.length ≤ rest.length := length_dropWhile_le _ _
  match readOffset name after with
  | .error e => .error e
  | .ok (offset, ⟨r, h⟩) =>
    match readTail name r with
    | .error e => .error e
    | .ok (qualifier, optional, ⟨r2, h2⟩) =>
      .ok ({ name, offset, qualifier, optional }, ⟨r2, by omega⟩)

/-- Splits a graph line into tokens. -/
def lex (cs : List Char) : Except String (List Token) :=
  match cs with
  | [] => .ok []
  | ' ' :: rest | '\t' :: rest => lex rest
  | '=' :: '>' :: rest => (Token.arrow :: ·) <$> lex rest
  | '&' :: rest => (Token.and :: ·) <$> lex rest
  | '|' :: rest => (Token.or :: ·) <$> lex rest
  | '(' :: rest => (Token.lparen :: ·) <$> lex rest
  | ')' :: rest => (Token.rparen :: ·) <$> lex rest
  | c :: rest =>
    if isNameChar c && c != '+' && c != '-' then
      match readRef c rest with
      | .error e => .error e
      | .ok (r, ⟨more, h⟩) => (Token.ref r :: ·) <$> lex more
    else .error s!"unexpected character {Text.quote (String.singleton (leadByteChar c))}"
termination_by cs.length
decreasing_by all_goals simp only [List.length_cons]; omega

end CycleSched.Graph
