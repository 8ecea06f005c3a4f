import CycleSched.Yaml.Scalar

/-!
# Untyped settings

Task settings are first held as they are written, without a type: scalars, lists, tables keyed
by text, and tables keyed by other scalars (a mapping whose keys are not all texts). Inheritance
and broadcasts work on these values by overlaying one table on another and by setting one
dotted path; only then is a tree given its type.

A table keeps each key once. Its order is of no meaning: every reader looks keys up, and the
writer sorts them.
-/

namespace CycleSched

/-- An untyped setting. -/
inductive Setting where
  | leaf (value : Yaml.Scalar)
  | list (items : List Setting)
  /-- A table keyed by texts. -/
  | table (entries : List (String × Setting))
  /-- A table keyed by scalars of any kind. -/
  | keyed (entries : List (Yaml.Scalar × Setting))
  deriving Repr

instance : Inhabited Setting := ⟨.leaf .null⟩

/-- A table of settings, keyed by name. -/
abbrev SettingTable := List (String × Setting)

namespace SettingTable

/-- The setting under a key. -/
def get? (t : SettingTable) (k : String) : Option Setting :=
  t.lookup k

/-- Sets a key: a key already present keeps its place, a new one goes last. -/
def put (t : SettingTable) (k : String) (v : Setting) : SettingTable :=
  if t.any (·.1 == k) then t.map fun e => if e.1 == k then (k, v) else e
  else t ++ [(k, v)]

/-- Removes a key. -/
def erase (t : SettingTable) (k : String) : SettingTable :=
  t.filter (·.1 != k)

/-- The subtable under a key, when the key holds a table keyed by texts. -/
def subtable? (t : SettingTable) (k : String) : Option SettingTable :=
  match t.get? k with
  | some (.table e) => some e
  | _ => none

/-- Overlays `src` on `dst`: a table keyed by texts meets such a table key by key, anything else
replaces. -/
def overlay (dst src : SettingTable) : SettingTable :=
  src.attach.foldl (fun acc ⟨(k, v), _⟩ =>
    match v, acc.subtable? k with
    | .table sub, some old => acc.put k (.table (overlay old sub))
    | v, _ => acc.put k v) dst
termination_by sizeOf src
decreasing_by
  have := List.sizeOf_lt_of_mem ‹(k, Setting.table sub) ∈ src›
  simp_all
  omega

/-- Sets the setting at a path of keys; a key on the way that holds no table keyed by texts gets
an empty table first. -/
def setAt (t : SettingTable) : List String → Setting → SettingTable
  | [], _ => t
  | [k], v => t.put k v
  | k :: rest, v => t.put k (.table (setAt ((t.subtable? k).getD []) rest v))

end SettingTable

end CycleSched
