import CycleSched.Failure

/-!
# Cycling modes

A workflow cycles either over integers or over Gregorian date-times. The mode is named in any
letter case; an empty name means Gregorian.
-/

namespace CycleSched

/-- The index space of cycle points. -/
inductive Mode where
  | integer
  | gregorian
  deriving DecidableEq, Repr, Inhabited

namespace Mode

/-- The lower-case form of a character, for the letters a mode name can hold. -/
def foldCase (c : Char) : Char :=
  if c.toNat = 0x130 then 'i' else c.toLower

/-- The mode with a given name, in any letter case; the empty name is Gregorian. -/
def parse (s : String) : Except Failure Mode :=
  match String.ofList (s.toList.map foldCase) with
  | "" | "gregorian" => .ok gregorian
  | "integer" => .ok integer
  | _ => .error (.plain s!"unknown cycling mode {Text.quote s} (want integer or gregorian)")

/-- The name of a mode. -/
def name : Mode → String
  | integer => "integer"
  | gregorian => "gregorian"

end Mode

end CycleSched
