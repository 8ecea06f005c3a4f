import CycleSched.Config.Task

/-!
# Runtime namespaces

The runtime section of a workflow names namespaces, each with a table of task settings. A
namespace may inherit from others; a task's settings are those of its chain of ancestors,
overlaid from the most general (`root`) to the task itself.

Declaration order is kept: it breaks ties between tasks. One key may declare several
comma-separated namespaces that share a settings block, and a namespace declared again is
overlaid with the new block.
-/

namespace CycleSched

/-- The namespace every inheritance chain ends in. -/
def rootNamespace : String := "root"

/-- Runtime namespaces in declaration order, each with its own settings. -/
structure Namespaces where
  entries : List (String × SettingTable) := []

namespace Namespaces

/-- The names in declaration order. -/
def names (ns : Namespaces) : List String := ns.entries.map (·.1)

/-- Whether a namespace is declared. -/
def has (ns : Namespaces) (name : String) : Bool := ns.entries.any (·.1 == name)

/-- The own settings of a namespace. -/
def tree? (ns : Namespaces) (name : String) : Option SettingTable := ns.entries.lookup name

/-- Declares a namespace with the given settings, or replaces the settings of one. -/
def add (ns : Namespaces) (name : String) (t : SettingTable) : Namespaces :=
  if ns.has name then ⟨ns.entries.map fun e => if e.1 == name then (name, t) else e⟩
  else ⟨ns.entries ++ [(name, t)]⟩

/-- Declares a block of settings for every name listed in a key: a new name takes the block, a
known one is overlaid with it. -/
def declare (ns : Namespaces) (key : String) (t : SettingTable) : Namespaces :=
  (Yaml.splitList key).foldl (fun ns name =>
    match ns.tree? name with
    | some old => ns.add name (SettingTable.overlay old t)
    | none => ns.add name t) ns

open Yaml Decode in
/-- Reads the runtime section. It must be a mapping; each value that is not an empty scalar is
decoded on its own as a table, and a failure to decode one stops the reading. The key of an
entry may declare several namespaces. A section tagged as a null is read as a record without
fields. -/
def read : Reader Namespaces
  | 0, _, _ => tooDeep
  | fuel + 1, n, old => visit n fun n => do
    if (← shortTagOf n) == "!!null" then
      match n with
      | .scalar text _ tag _ =>
        match (← scalarValue text tag).2 with
        | .null => return (old, false)
        | _ =>
          mismatch n "config.Namespaces"
          return (old, false)
      | _ => readRecord "config.Namespaces" [] fuel n old
    else
      match n with
      | .mapping entries _ _ =>
        let mut ns : Namespaces := {}
        for (key, val) in entries do
          let tree ← match val with
            | .scalar "" .. => pure []
            | _ =>
              let table := readTextMap "map[string]interface \x7b\x7d" (.leaf .null) readAny
              match ← detached table val (some []) with
              | .ok t => pure (t.getD [])
              | .error e => throw (.within ("runtime " ++ Text.quote key.text ++ ": ") e)
          ns := ns.declare key.text tree
        return (ns, true)
      | _ => throw (.plain ("line " ++ toString n.line ++ ": runtime must be a mapping"))

/-- The inheritance chain of a namespace: the namespace first, then each ancestor on first
visit, depth first, and `root` last. A parent that is not declared, or a chain that comes back
on itself, is refused. -/
def chain (ns : Namespaces) (name : String) : Except Failure (List String) := do
  let out ← visit (ns.entries.length + 2) name [] []
  return if name == rootNamespace then out else out ++ [rootNamespace]
where
  /-- Visits a namespace below the chain `stack`, adding to the names seen so far. -/
  visit : Nat → String → List String → List String → Except Failure (List String)
    | 0, _, _, out => .ok out
    | fuel + 1, n, stack, out =>
      if stack.contains n then
        .error (.plain ("runtime inheritance cycle: " ++ " -> ".intercalate stack ++ " -> " ++ n))
      else
        let out := if out.contains n then out else out ++ [n]
        let parents := ((ns.tree? n).map SettingTable.parents).getD []
        parents.foldlM (fun out p =>
          if p == rootNamespace then .ok out
          else if !ns.has p then
            .error (.plain s!"runtime {Text.quote n} inherits undefined namespace {Text.quote p}")
          else visit fuel p (stack ++ [n]) out) out

/-- The settings of a namespace with everything it inherits: the chain's tables from `root` to
the namespace, each without its `inherit` key, overlaid in turn. -/
def merged (ns : Namespaces) (name : String) : Except Failure SettingTable := do
  let names ← ns.chain name
  return names.reverse.foldl (fun acc n =>
    match ns.tree? n with
    | some t => SettingTable.overlay acc (t.erase "inherit")
    | none => acc) []

end Namespaces

end CycleSched
