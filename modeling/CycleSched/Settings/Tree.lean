import CycleSched.Yaml.Decode

/-!
# Setting paths and inheritance

A broadcast sets one dotted path of a setting tree to a value written as YAML: the value keeps
its type when it reads as a single scalar (or a table keyed by other scalars), and is taken as
the text it stands for otherwise. A namespace names the namespaces it inherits from under the
key `inherit`.
-/

namespace CycleSched

/-- Reads a text as a setting. A text that does not read as one document, or reads as a null, a
list or a table keyed by texts, is taken as a string as it stands. -/
def Setting.ofValueText (value : String) : Setting :=
  let text := if value.isEmpty then "\n" else value
  match Yaml.readDocument text with
  | .ok (some doc) =>
    match doc.decode false Yaml.readAny (.leaf .null) with
    | .ok (.leaf .null) | .ok (.list _) | .ok (.table _) => .leaf (.str value)
    | .ok v => v
    | .error _ => .leaf (.str value)
  | _ => .leaf (.str value)

namespace SettingTable

/-- Sets a dotted path to a value read from its text. An empty part of the path is refused. -/
def setPath (t : SettingTable) (path value : String) : Except Failure SettingTable :=
  let keys := path.splitOn "."
  if keys.any (· == "") then .error (.plain s!"empty component in setting path {Text.quote path}")
  else .ok (t.setAt keys (Setting.ofValueText value))

/-- The parents a table names under `inherit`: a comma-separated text, or a list whose text
items count. -/
def parents (t : SettingTable) : List String :=
  match t.get? "inherit" with
  | some (.leaf (.str s)) => Yaml.splitList s
  | some (.list items) => items.filterMap fun
    | .leaf (.str s) => some (Text.trimBlank s)
    | _ => none
  | _ => []

end SettingTable

end CycleSched
