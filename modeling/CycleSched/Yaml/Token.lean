/-!
# YAML tokens

A YAML text is first cut into tokens: stream and document markers, the indicators of block and
flow collections, keys and values, anchors, aliases, tags and scalars. Every token carries the
marks where it starts and ends. A mark counts characters, lines and columns from zero.

This module also holds the character classes the reader works with and the report a reading
problem gives.
-/

namespace CycleSched.Yaml

/-- A place in a text: the character index, the line and the column, all counted from zero. -/
structure Mark where
  index : Nat := 0
  line : Nat := 0
  column : Nat := 0
  deriving Repr, Inhabited, BEq

/-- How a scalar was written. -/
inductive Style where
  | plain
  | singleQuoted
  | doubleQuoted
  | literal
  | folded
  deriving DecidableEq, Repr, Inhabited

/-- What a token is, with the data it carries. -/
inductive TokenKind where
  | streamStart
  | streamEnd
  | versionDirective (major minor : Nat)
  | tagDirective (handle pfx : String)
  | documentStart
  | documentEnd
  | blockSequenceStart
  | blockMappingStart
  | blockEnd
  | flowSequenceStart
  | flowSequenceEnd
  | flowMappingStart
  | flowMappingEnd
  | blockEntry
  | flowEntry
  | key
  | value
  | alias (name : String)
  | anchor (name : String)
  | tag (handle suffix : String)
  | scalar (text : String) (style : Style)
  deriving Repr, Inhabited, BEq

/-- A token and the marks where it starts and ends. -/
structure Token where
  kind : TokenKind
  start : Mark
  stop : Mark
  deriving Repr, Inhabited

/-- A problem met while reading YAML text, with the line its report names (counted from one),
if any. -/
structure ReadError where
  line : Option Nat
  problem : String
  deriving Repr, Inhabited

namespace ReadError

/-- The report of a reading problem. -/
def message (e : ReadError) : String :=
  match e.line with
  | some l => s!"yaml: line {l}: {e.problem}"
  | none => "yaml: " ++ e.problem

/-- A problem of the character stream itself; its report names no line. -/
def ofInput (problem : String) : ReadError := ⟨none, problem⟩

/-- A problem found while cutting tokens. The report names the line after the one of the
context mark, or if that is the first line, the line after the one of the current mark; on the
first line it names none. -/
def ofScan (context current : Mark) (problem : String) : ReadError :=
  if context.line ≠ 0 then ⟨some (context.line + 1), problem⟩
  else if current.line ≠ 0 then ⟨some (current.line + 1), problem⟩
  else ⟨none, problem⟩

/-- A problem found while reading the structure of tokens. The report names the line of the
context mark as counted from zero, or that of the problem mark, or none when both are on the
first line. -/
def ofStructure (context problemMark : Mark) (problem : String) : ReadError :=
  if context.line ≠ 0 then ⟨some context.line, problem⟩
  else if problemMark.line ≠ 0 then ⟨some problemMark.line, problem⟩
  else ⟨none, problem⟩

end ReadError

/-- A line break: carriage return, line feed, next line, line separator or paragraph separator. -/
def isBreak (c : Char) : Bool :=
  c = '\r' || c = '\n' || c = '\x85' || c = '\u2028' || c = '\u2029'

/-- A space or a tab. -/
def isBlank (c : Char) : Bool := c = ' ' || c = '\t'

/-- The end of the text, which reads as the character zero. -/
def isEnd (c : Char) : Bool := c = '\x00'

/-- A line break or the end of the text. -/
def isBreakOrEnd (c : Char) : Bool := isBreak c || isEnd c

/-- A space, a tab, a line break or the end of the text. -/
def isBlankOrEnd (c : Char) : Bool := isBlank c || isBreakOrEnd c

/-- A character of an anchor name or tag handle: an ASCII letter or digit, `_` or `-`. -/
def isWordChar (c : Char) : Bool :=
  ('0' ≤ c && c ≤ '9') || ('A' ≤ c && c ≤ 'Z') || ('a' ≤ c && c ≤ 'z') || c = '_' || c = '-'

/-- An ASCII hex digit. -/
def isHexDigit (c : Char) : Bool :=
  ('0' ≤ c && c ≤ '9') || ('A' ≤ c && c ≤ 'F') || ('a' ≤ c && c ≤ 'f')

/-- The value of an ASCII hex digit. -/
def hexValue (c : Char) : Nat :=
  if 'A' ≤ c && c ≤ 'F' then c.toNat - 55
  else if 'a' ≤ c && c ≤ 'f' then c.toNat - 87
  else c.toNat - 48

/-- A character the input may hold: tab, line feed, carriage return, printable ASCII, next line,
and the code points from `U+00A0` on, except surrogates, `U+FFFE` and `U+FFFF`. -/
def isAllowedInput (c : Char) : Bool :=
  let n := c.toNat
  n = 0x09 || n = 0x0A || n = 0x0D || (0x20 ≤ n && n ≤ 0x7E) || n = 0x85 ||
    (0xA0 ≤ n && n ≤ 0xD7FF) || (0xE000 ≤ n && n ≤ 0xFFFD) || (0x10000 ≤ n && n ≤ 0x10FFFF)

/-- The number of bytes of a character in UTF-8. -/
def utf8Width (c : Char) : Nat := c.utf8Size

end CycleSched.Yaml
