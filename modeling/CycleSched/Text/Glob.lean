import CycleSched.Text.Utf8

/-!
# Glob patterns

Shell-style patterns over names that do not cross `/`: `*` matches any run of characters other
than `/`, `?` matches one character other than `/`, `[...]` matches one character of a class
of characters and ranges (`[^...]` for the complement), and `\` makes the next character
literal. A pattern that does not follow this grammar is malformed and matches nothing.

A pattern is cut into chunks, each a run of stars followed by literal text; a chunk after a star
may start at any byte of the name's UTF-8 form before the next `/`, even inside a character.
Where a chunk reads a character of the name, bytes that do not start a well-formed UTF-8
character read as the replacement character `U+FFFD`, one byte at a time.
-/

namespace CycleSched.Text.Glob

open Utf8

/-- A chunk of a pattern: whether stars come before it, and its text up to the next star outside
a class. -/
structure Chunk where
  star : Bool
  body : List Char

/-- Splits the text of a chunk off the head of a pattern (after its stars): up to the first
star outside a class, skipping escaped characters. -/
def chunkBody : List Char → Bool → List Char × List Char
  | [], _ => ([], [])
  | '\\' :: c :: r, inClass =>
    let (b, rest) := chunkBody r inClass
    ('\\' :: c :: b, rest)
  | '[' :: r, _ =>
    let (b, rest) := chunkBody r true
    ('[' :: b, rest)
  | ']' :: r, _ =>
    let (b, rest) := chunkBody r false
    (']' :: b, rest)
  | '*' :: r, inClass =>
    if inClass then
      let (b, rest) := chunkBody r inClass
      ('*' :: b, rest)
    else ([], '*' :: r)
  | c :: r, inClass =>
    let (b, rest) := chunkBody r inClass
    (c :: b, rest)

/-- Takes the next chunk off a non-empty pattern. -/
def nextChunk (p : List Char) : Chunk × List Char :=
  let stars := p.takeWhile (· = '*')
  let (body, rest) := chunkBody (p.dropWhile (· = '*')) false
  (⟨!stars.isEmpty, body⟩, rest)

/-- The result of matching a chunk at the head of a name. -/
inductive Step where
  /-- The chunk matched; the rest of the name's bytes follows. -/
  | matched (rest : List UInt8)
  | failed
  | malformed

/-- The bytes of a name after a literal character of a pattern, when the name starts with that
character's UTF-8 bytes. -/
def afterLiteral (c : Char) (s : List UInt8) : Option (List UInt8) :=
  let bytes := Utf8.toBytes (String.singleton c)
  if bytes.isPrefixOf s then some (s.drop bytes.length) else none

/-- One member of a class: a character, escaped with `\` or not, that is not `-` or `]`, and
must be followed by more of the class. -/
def classChar : List Char → Option (Char × List Char)
  | [] => none
  | '-' :: _ => none
  | ']' :: _ => none
  | '\\' :: c :: r => if r.isEmpty then none else some (c, r)
  | '\\' :: [] => none
  | c :: r => if r.isEmpty then none else some (c, r)

/-- Reads the ranges of a class up to its closing `]`, and whether `c` lies in one. -/
def classRanges (c : Char) : Nat → List Char → Bool → Option (Bool × List Char)
  | 0, _, _ => none
  | fuel + 1, p, seen =>
    match p with
    | ']' :: r => if seen then some (false, r) else none
    | _ =>
      match classChar p with
      | none => none
      | some (lo, r) =>
        let range : Option (Char × List Char) :=
          match r with
          | '-' :: r' => classChar r'
          | _ => some (lo, r)
        match range with
        | none => none
        | some (hi, r'') =>
          match classRanges c fuel r'' true with
          | none => none
          | some (m, rest) => some ((lo ≤ c && c ≤ hi) || m, rest)

/-- Matches a chunk's text at the head of a name. Once the name fails to match, the rest of the
chunk is still read, so that a malformed chunk is always reported. -/
def matchBody : Nat → List Char → Option (List UInt8) → Step
  | 0, _, _ => .malformed
  | _, [], s => match s with
    | some rest => .matched rest
    | none => .failed
  | fuel + 1, '[' :: p, s =>
    let (c, s') := match s with
      | some (b :: r) =>
        let (c, r) := decodeChar b r
        (c, some r)
      | _ => ('\x00', none)
    let (neg, p) := match p with
      | '^' :: r => (true, r)
      | r => (false, r)
    match classRanges c p.length p false with
    | none => .malformed
    | some (m, p') => matchBody fuel p' (if m == neg then none else s')
  | fuel + 1, '?' :: p, s =>
    matchBody fuel p (match s with
      | some (b :: r) => if b = 47 then none else some (decodeChar b r).2
      | _ => none)
  | _, '\\' :: [], _ => .malformed
  | fuel + 1, '\\' :: c :: p, s => matchBody fuel p (s.bind (afterLiteral c))
  | fuel + 1, c :: p, s => matchBody fuel p (s.bind (afterLiteral c))

/-- Matches a chunk's text at the head of a name's bytes. -/
def matchChunk (body : List Char) (name : List UInt8) : Step :=
  matchBody (body.length + 1) body (some name)

/-- Whether the chunks of a pattern are all well formed. -/
def wellFormed : Nat → List Char → Bool
  | 0, _ => true
  | fuel + 1, p =>
    if p.isEmpty then true else
    let (ch, rest) := nextChunk p
    match matchChunk ch.body [] with
    | .malformed => false
    | _ => wellFormed fuel rest

/-- Tries a chunk after a star at each later byte of the name before the next `/`. -/
def skipSearch (body : List Char) (last : Bool) : List UInt8 → Option (List UInt8) ⊕ Unit
  | [] => .inl none
  | b :: r =>
    if b = 47 then .inl none else
    match matchChunk body r with
    | .matched t => if last && !t.isEmpty then skipSearch body last r else .inl (some t)
    | .malformed => .inr ()
    | .failed => skipSearch body last r

/-- Matches a pattern against a name: `some` the answer, `none` when the pattern is
malformed. -/
def run : Nat → List Char → List UInt8 → Option Bool
  | 0, _, _ => none
  | fuel + 1, p, name =>
    if p.isEmpty then some name.isEmpty else
    let (ch, rest) := nextChunk p
    if ch.star && ch.body.isEmpty then some (!name.contains 47) else
    let giveUp : Option Bool := if wellFormed rest.length rest then some false else none
    match matchChunk ch.body name with
    | .matched t =>
      if t.isEmpty || !rest.isEmpty then run fuel rest t
      else if ch.star then
        match skipSearch ch.body rest.isEmpty name with
        | .inl (some t') => run fuel rest t'
        | .inl none => giveUp
        | .inr () => none
      else giveUp
    | .malformed => none
    | .failed =>
      if ch.star then
        match skipSearch ch.body rest.isEmpty name with
        | .inl (some t') => run fuel rest t'
        | .inl none => giveUp
        | .inr () => none
      else giveUp

/-- A name matches a pattern; a malformed pattern matches nothing. -/
def accepts (pattern name : String) : Bool :=
  (run (pattern.length + 1) pattern.toList (Utf8.toBytes name)).getD false

/-- The pattern follows the grammar, as seen by matching it against the empty name. -/
def isValid (pattern : String) : Bool :=
  (run (pattern.length + 1) pattern.toList []).isSome

end CycleSched.Text.Glob
