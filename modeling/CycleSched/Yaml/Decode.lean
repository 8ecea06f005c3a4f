import CycleSched.Yaml.Compose
import CycleSched.Settings.Basic
import CycleSched.Failure
import CycleSched.Text.Blank
import CycleSched.Text.Base64
import CycleSched.Text.Utf8

/-!
# Decoding documents into typed values

Decoding walks a document against the type a value expects, starting from the value's current
contents. A node of the wrong type does not stop the walk: it is noted as a mismatch
(`line N: cannot unmarshal <tag> <text> into <type>`) and the value keeps what it had; all
mismatches are reported together at the end. A few problems stop the walk at once: an alias met
inside its own expansion, aliases that expand far beyond the document, a merge key whose value
is no mapping, and the failures of types that read their node themselves.

* A scalar decodes by what its text resolves to under its tag. A null leaves texts, numbers,
  booleans and records alone, and empties lists, tables and untyped values.
* A mapping may not repeat a key (same kind, same text); each repetition is a mismatch and the
  mapping is not read.
* A record takes the keys that name its fields, each at most once; when the decoding is strict,
  any other key is a mismatch.
* The key `<<` merges a mapping, or a sequence of mappings, into the one it stands in: the
  mapping's own keys win, then earlier merged mappings over later ones.
* Without a type, a mapping whose keys are all texts becomes a table keyed by texts, any other
  mapping a table keyed by scalars.

Every read of a node is counted, and so are the reads made while an alias is expanded; when
nearly all reads of a large document come from aliases, the decoding stops.
-/

namespace CycleSched.Yaml

/-- The state of a decoding. -/
structure Decoder where
  doc : Document
  /-- Keys that name no field of a record are mismatches. -/
  strict : Bool := false
  /-- The mismatches met so far, in order. -/
  mismatches : Array String := #[]
  /-- Nodes read so far. -/
  reads : Nat := 0
  /-- Nodes read while an alias was being expanded. -/
  aliasReads : Nat := 0
  /-- The numbers of the aliases being expanded, innermost first. -/
  expanding : List Nat := []
  /-- While mappings are merged in: the keys already set. -/
  merged : Option (List Scalar) := none

/-- A decoding step: it changes the decoding state and may stop with a failure. -/
abbrev Decode := StateT Decoder (Except Failure)

/-- A way to read nodes into values of type `α`: given the fuel, a node and the current value,
it gives the new value and whether the node fit. -/
abbrev Reader (α : Type) := Nat → Node → α → Decode (α × Bool)

namespace Decode

/-- Stops the decoding with a problem of the document. -/
def failWith {α : Type} (problem : String) : Decode α := throw (.plain ("yaml: " ++ problem))

/-- Stops a decoding that went deeper than its document allows; this cannot happen. -/
def tooDeep {α : Type} : Decode α := failWith "document is nested too deeply"

/-- Notes a mismatch. -/
def note (line : String) : Decode Unit :=
  modify fun d => { d with mismatches := d.mismatches.push line }

/-- The first `n` bytes of a text's characters; a character cut short leaves one replacement
character for each of its bytes that is kept. -/
def bytePrefix : List Char → Nat → List Char
  | [], _ => []
  | c :: rest, n =>
    if c.utf8Size ≤ n then c :: bytePrefix rest (n - c.utf8Size)
    else List.replicate n '\uFFFD'

/-- The text of a scalar as a mismatch report shows it: its first seven bytes and `...` when it
is longer than ten bytes. -/
def shownText (v : String) : String :=
  if v.utf8ByteSize > 10 then String.ofList (bytePrefix v.toList 7) ++ "..." else v

/-- Notes that a node does not fit a type. Collections are shown by their tag alone. -/
def mismatch (n : Node) (typeName : String) : Decode Unit :=
  let tag := n.tag
  let shown := if tag == "!!seq" || tag == "!!map" then "" else " `" ++ shownText n.text ++ "`"
  note ("line " ++ toString n.line ++ ": cannot unmarshal " ++ tag ++ shown ++ " into " ++
    typeName)

/-- The share of reads through aliases that a decoding may reach after `reads` reads: 0.99 up
to 400000 reads, falling in a straight line to 0.10 at 4000000 reads. -/
def allowedAliasShare (reads : Nat) : Float :=
  if reads ≤ 400000 then 0.99
  else if reads ≥ 4000000 then 0.10
  else 0.99 - 0.89 * (Float.ofNat (reads - 400000) / 3600000.0)

/-- Counts one read of a node, and stops a decoding in which more than a hundred of over a
thousand reads came almost all from aliases. -/
def step : Decode Unit := do
  modify fun d =>
    let more := if d.expanding.isEmpty then 0 else 1
    { d with reads := d.reads + 1, aliasReads := d.aliasReads + more }
  let d ← get
  if d.aliasReads > 100 && d.reads > 1000 &&
      Float.ofNat d.aliasReads / Float.ofNat d.reads > allowedAliasShare d.reads then
    failWith "document contains excessive aliasing"

/-- Reads a node with `read`, counting the read. An alias is read as the node it stands for,
counted once more; an alias met again while it is being expanded stops the decoding. -/
def visit {α : Type} (n : Node) (read : Node → Decode α) : Decode α := do
  step
  match n with
  | .alias name target ident _ =>
    if (← get).expanding.contains ident then
      failWith ("anchor " ++ "'" ++ name ++ "'" ++ " value contains itself")
    modify fun d => { d with expanding := ident :: d.expanding }
    step
    let v ← read ((← get).doc.anchored[target]?.getD n)
    modify fun d => { d with expanding := d.expanding.erase ident }
    return v
  | n => read n

/-- The short tag that says what a node is, an alias taking that of its node. -/
def shortTagOf (n : Node) : Decode String := return (← get).doc.shortTagOf n

/-- The tag and value a scalar decodes to: a string when it is tagged or written as one, else
its text resolved under its tag; a binary scalar is the text its base64 stands for, with its
malformed bytes kept as stray bytes. -/
def scalarValue (text tag : String) : Decode (String × Scalar) := do
  if tag == "!!str" then return ("!!str", .str text)
  match resolve tag text with
  | .error e => failWith e
  | .ok (rtag, v) =>
    if rtag == "!!binary" then
      match Text.decodeBase64 text with
      | some bytes => return (rtag, .str (Text.Utf8.ofBytes bytes))
      | none => failWith "!!binary value contains invalid base64 data"
    else return (rtag, v)

/-- Notes every key of a mapping that repeats an earlier one (of the same kind and text); true
when there is none. -/
def uniqueKeys (entries : List (Node × Node)) : Decode Bool := do
  let before := (← get).mismatches.size
  let keys := entries.map (·.1)
  for (k, i) in keys.zipIdx do
    for k₂ in keys.drop (i + 1) do
      if k.kindIndex == k₂.kindIndex && k.text == k₂.text then
        note ("line " ++ toString k₂.line ++ ": mapping key " ++ Text.quote k₂.text ++
          " already defined at line " ++ toString k.line)
  return (← get).mismatches.size == before

/-- The keys of a mapping are all texts (or merge keys). -/
def textKeyed (entries : List (Node × Node)) : Decode Bool := do
  let doc := (← get).doc
  return entries.all fun (k, _) =>
    let t := doc.shortTagOf k
    t == "!!str" || t == "!!merge"

/-- Decodes a node as a separate decoding of the same document: counts of its own, no alias
being expanded, and keys that name no field allowed. Its mismatches make it fail. -/
def detached {α : Type} (read : Reader α) (n : Node) (init : α) : Decode (Except Failure α) := do
  let doc := (← get).doc
  return match (read doc.bound n init).run { doc } with
    | .error f => .error f
    | .ok ((v, _), d) =>
      if d.mismatches.isEmpty then .ok v else .error (.typeMismatch d.mismatches.toList)

end Decode

open Decode

/-- Sets a key of an association list: a key already present keeps its place. -/
def putEntry {κ α : Type} (same : κ → κ → Bool) (out : List (κ × α)) (k : κ) (v : α) :
    List (κ × α) :=
  if out.any (same k ·.1) then out.map fun e => if same k e.1 then (k, v) else e
  else out ++ [(k, v)]

/-- Reads the entries of a mapping into a table. A key that does not decode is skipped, and so
is one already set while mappings are merged in. A value is set when it fits, or when it is
null and the key is new. The answer is the table and the value of the last merge key. -/
def entriesInto {κ α : Type} (key : Node → Decode (Option κ)) (asKey : κ → Scalar)
    (elem : Node → α → Decode (α × Bool)) (zero : α) (entries : List (Node × Node))
    (out : List (κ × α)) (isNew : Bool) : Decode (List (κ × α) × Option Node) := do
  let same (a b : κ) := Scalar.sameKey (asKey a) (asKey b)
  let outer := (← get).merged
  modify fun d => { d with merged := none }
  let mut seen := outer
  let mut out := out
  let mut source : Option Node := none
  for (k, v) in entries do
    if k.isMerge then
      source := some v
      continue
    let some name ← key k | continue
    if let some m := seen then
      if m.any (Scalar.sameKey (asKey name)) then continue
      seen := some (m ++ [asKey name])
    let (e, good) ← elem v zero
    if good || ((← shortTagOf v) == "!!null" && (isNew || !out.any (same name ·.1))) then
      out := putEntry same out name e
  modify fun d => { d with merged := seen }
  return (out, source)

/-- Merges the mappings that a merge key's value names into a value, with `again` reading one
of them over it. The keys of the mapping that holds the merge key are set first, read without a
type, unless mappings are being merged already. The value must be a mapping, an alias of one, or
a sequence of those. -/
def mergeInto {α : Type} (keyValue : Node → Decode (Setting × Bool))
    (again : Node → α → Decode (α × Bool)) (keys : List Node) (source : Node) (v : α) :
    Decode α := do
  let saved := (← get).merged
  if saved.isNone then
    modify fun d => { d with merged := some [] }
    for k in keys do
      let (kv, ok) ← keyValue k
      if ok then
        if let .leaf s := kv then
          modify fun d => { d with merged := d.merged.map (· ++ [s]) }
  let isMapping (n : Node) : Decode Bool := do
    match n with
    | .mapping .. => return true
    | .alias _ target _ _ =>
      return match (← get).doc.anchored[target]? with
        | some (.mapping ..) => true
        | _ => false
    | _ => return false
  let wantMap : Decode α := failWith "map merge requires map or sequence of maps as the value"
  let v ← match source with
    | .mapping .. | .alias .. =>
      do if ← isMapping source then return (← again source v).1 else wantMap
    | .sequence items _ _ =>
      items.foldlM (fun v item => do
        if ← isMapping item then return (← again item v).1 else wantMap) v
    | _ => wantMap
  modify fun d => { d with merged := saved }
  return v

/-- Reads a node into a text of the named type: any scalar but a null gives its text (a binary
scalar the text it stands for). -/
def readText (typeName : String) : Reader String := fun _ n old => visit n fun n => do
  match n with
  | .scalar text _ tag _ =>
    let (rtag, v) ← scalarValue text tag
    match v with
    | .null => return (old, false)
    | .str s => return (if rtag == "!!binary" then s else text, true)
    | _ => return (text, true)
  | .mapping entries _ _ =>
    if !(← uniqueKeys entries) then return (old, false)
    mismatch n typeName
    return (old, false)
  | _ =>
    mismatch n typeName
    return (old, false)

/-- The key of a table keyed by texts, when the key node decodes to a text. -/
def textKey (n : Node) : Decode (Option String) := do
  let (s, ok) ← readText "string" 0 n ""
  return if ok then some s else none

/-- Reads a node into a boolean: a boolean, or one of the words `y`, `yes`, `on`, `n`, `no`,
`off` in their usual letter cases. -/
def readBool : Reader Bool := fun _ n old => visit n fun n => do
  match n with
  | .scalar text _ tag _ =>
    match (← scalarValue text tag).2 with
    | .null => return (old, false)
    | .bool b => return (b, true)
    | .str s =>
      if ["y", "Y", "yes", "Yes", "YES", "on", "On", "ON"].contains s then return (true, true)
      else if ["n", "N", "no", "No", "NO", "off", "Off", "OFF"].contains s then
        return (false, true)
      else
        mismatch n "bool"
        return (old, false)
    | _ =>
      mismatch n "bool"
      return (old, false)
  | .mapping entries _ _ =>
    if !(← uniqueKeys entries) then return (old, false)
    mismatch n "bool"
    return (old, false)
  | _ =>
    mismatch n "bool"
    return (old, false)

/-- Reads a node into a signed 64-bit integer: an integer in range, or a float up to 2^63 cut
toward zero. -/
def readInt : Reader Int := fun _ n old => visit n fun n => do
  match n with
  | .scalar text _ tag _ =>
    match (← scalarValue text tag).2 with
    | .null => return (old, false)
    | .int i =>
      if i < Int.pow 2 63 then return (i, true)
      else
        mismatch n "int"
        return (old, false)
    | .float f =>
      if f ≤ 9223372036854775807.0 then return ((Decimal.toWord f).toInt, true)
      else
        mismatch n "int"
        return (old, false)
    | _ =>
      mismatch n "int"
      return (old, false)
  | .mapping entries _ _ =>
    if !(← uniqueKeys entries) then return (old, false)
    mismatch n "int"
    return (old, false)
  | _ =>
    mismatch n "int"
    return (old, false)

/-- Reads a node into a float: an integer or a float. -/
def readFloat : Reader Float := fun _ n old => visit n fun n => do
  match n with
  | .scalar text _ tag _ =>
    match (← scalarValue text tag).2 with
    | .null => return (old, false)
    | .int i => return (Float.ofInt i, true)
    | .float f => return (f, true)
    | _ =>
      mismatch n "float64"
      return (old, false)
  | .mapping entries _ _ =>
    if !(← uniqueKeys entries) then return (old, false)
    mismatch n "float64"
    return (old, false)
  | _ =>
    mismatch n "float64"
    return (old, false)

/-- A scalar as a report of a bad key shows it. -/
def Scalar.literal : Scalar → String
  | .null => "interface \x7b\x7d(nil)"
  | .str s => Text.quote s
  | .bool b => if b then "true" else "false"
  | .int i => toString i
  | .float f => Decimal.general f
  | .time t => t.toText

/-- A value as a report of a bad key shows it: the type of a collection, then its items. -/
def keyLiteral : Setting → String
  | .leaf v => v.literal
  | .list items => "[]interface \x7b\x7d\x7b" ++
    ", ".intercalate (items.attach.map fun ⟨v, _⟩ => keyLiteral v) ++ "\x7d"
  | .table entries => "map[string]interface \x7b\x7d\x7b" ++
    ", ".intercalate (entries.attach.map fun ⟨(k, v), _⟩ => Text.quote k ++ ":" ++ keyLiteral v) ++
    "\x7d"
  | .keyed entries => "map[interface \x7b\x7d]interface \x7b\x7d\x7b" ++
    ", ".intercalate (entries.attach.map fun ⟨(k, v), _⟩ => k.literal ++ ":" ++ keyLiteral v) ++
    "\x7d"
termination_by s => sizeOf s
decreasing_by
  all_goals first
    | have h := List.sizeOf_lt_of_mem ‹_ ∈ items›; simp_all; omega
    | have h := List.sizeOf_lt_of_mem ‹_ ∈ entries›; simp_all; omega

mutual

/-- Reads a node into a value without a type. -/
def readAny : Reader Setting
  | 0, _, _ => tooDeep
  | fuel + 1, n, old => visit n fun n => do
    match n with
    | .scalar text _ tag _ => return (.leaf (← scalarValue text tag).2, true)
    | .sequence items _ _ =>
      let mut out : Array Setting := #[]
      for item in items do
        let (v, ok) ← readAny fuel item (.leaf .null)
        if ok then out := out.push v
      return (.list out.toList, true)
    | .mapping entries _ _ =>
      if !(← uniqueKeys entries) then return (old, false)
      if ← textKeyed entries then
        return (.table (← anyTextBody fuel entries []), true)
      else
        return (.keyed (← anyKeyedBody fuel entries []), true)
    | .alias .. => return (old, false)

/-- Reads the entries of a mapping, and what it merges in, into a table keyed by texts. -/
def anyTextBody : Nat → List (Node × Node) → List (String × Setting) →
    Decode (List (String × Setting))
  | 0, _, _ => tooDeep
  | fuel + 1, entries, out => do
    let (out, source) ← entriesInto textKey Scalar.str (readAny fuel) (.leaf .null) entries out
      false
    match source with
    | none => return out
    | some m => mergeInto (readAny fuel · (.leaf .null)) (anyTextTable fuel) (entries.map (·.1)) m out

/-- Reads a mapping node over a table keyed by texts. -/
def anyTextTable : Nat → Node → List (String × Setting) →
    Decode (List (String × Setting) × Bool)
  | 0, _, _ => tooDeep
  | fuel + 1, n, out => visit n fun n => do
    match n with
    | .mapping entries _ _ =>
      if !(← uniqueKeys entries) then return (out, false)
      return (← anyTextBody fuel entries out, true)
    | _ =>
      mismatch n "map[string]interface {}"
      return (out, false)

/-- Reads the entries of a mapping, and what it merges in, into a table keyed by scalars. A key
that is a collection stops the decoding. -/
def anyKeyedBody : Nat → List (Node × Node) → List (Scalar × Setting) →
    Decode (List (Scalar × Setting))
  | 0, _, _ => tooDeep
  | fuel + 1, entries, out => do
    let key (k : Node) : Decode (Option Scalar) := do
      let (v, ok) ← readAny fuel k (.leaf .null)
      if !ok then return none
      match v with
      | .leaf s => return some s
      | v => failWith ("invalid map key: " ++ keyLiteral v)
    let (out, source) ← entriesInto key id (readAny fuel) (.leaf .null) entries out false
    match source with
    | none => return out
    | some m => mergeInto (readAny fuel · (.leaf .null)) (anyKeyedTable fuel) (entries.map (·.1)) m out

/-- Reads a mapping node over a table keyed by scalars. -/
def anyKeyedTable : Nat → Node → List (Scalar × Setting) →
    Decode (List (Scalar × Setting) × Bool)
  | 0, _, _ => tooDeep
  | fuel + 1, n, out => visit n fun n => do
    match n with
    | .mapping entries _ _ =>
      if !(← uniqueKeys entries) then return (out, false)
      return (← anyKeyedBody fuel entries out, true)
    | _ =>
      mismatch n "map[interface {}]interface {}"
      return (out, false)

end

/-- Reads a node into a table keyed by texts whose values `elem` reads, each starting from
`zero`. A null empties the table (`none`). -/
def readTextMap {α : Type} (typeName : String) (zero : α) (elem : Reader α) :
    Reader (Option (List (String × α)))
  | 0, _, _ => tooDeep
  | fuel + 1, n, old => visit n fun n => do
    match n with
    | .mapping entries _ _ =>
      if !(← uniqueKeys entries) then return (old, false)
      let (out, source) ← entriesInto textKey Scalar.str (elem fuel) zero entries (old.getD [])
        old.isNone
      match source with
      | none => return (some out, true)
      | some m =>
        let again (node : Node) (o : List (String × α)) := do
          let (r, ok) ← readTextMap typeName zero elem fuel node (some o)
          return (r.getD [], ok)
        return (some (← mergeInto (readAny fuel · (.leaf .null)) again (entries.map (·.1)) m out), true)
    | .scalar text _ tag _ =>
      match (← scalarValue text tag).2 with
      | .null => return (none, true)
      | _ =>
        mismatch n typeName
        return (old, false)
    | _ =>
      mismatch n typeName
      return (old, false)

/-- Reads a node into a list whose items `elem` reads, each starting from `zero`; an item that
does not fit is left out. A null empties the list (`none`). -/
def readList {α : Type} (typeName : String) (zero : α) (elem : Reader α) :
    Reader (Option (List α))
  | 0, _, _ => tooDeep
  | fuel + 1, n, old => visit n fun n => do
    match n with
    | .sequence items _ _ =>
      let mut out : Array α := #[]
      for item in items do
        let (v, ok) ← elem fuel item zero
        if ok then out := out.push v
      return (some out.toList, true)
    | .scalar text _ tag _ =>
      match (← scalarValue text tag).2 with
      | .null => return (none, true)
      | _ =>
        mismatch n typeName
        return (old, false)
    | .mapping entries _ _ =>
      if !(← uniqueKeys entries) then return (old, false)
      mismatch n typeName
      return (old, false)
    | .alias .. => return (old, false)

/-- A field of a record: the key that names it and how a node sets it. -/
structure Field (σ : Type) where
  key : String
  set : Nat → Node → σ → Decode σ

/-- The field under `key` that `read` reads into the part of a record that `get` and `put`
reach. -/
def Field.of {σ α : Type} (key : String) (read : Reader α) (get : σ → α) (put : σ → α → σ) :
    Field σ :=
  ⟨key, fun fuel n r => do return put r (← read fuel n (get r)).1⟩

/-- Reads a node into a record of the named type with the given fields. -/
def readRecord {σ : Type} (typeName : String) (fields : List (Field σ)) : Reader σ
  | 0, _, _ => tooDeep
  | fuel + 1, n, r => visit n fun n => do
    match n with
    | .mapping entries _ _ =>
      if !(← uniqueKeys entries) then return (r, false)
      let outer := (← get).merged
      modify fun d => { d with merged := none }
      let mut seen := outer
      let mut done : List String := []
      let mut source : Option Node := none
      let mut r := r
      for (k, v) in entries do
        if k.isMerge then
          source := some v
          continue
        let some name ← textKey k | continue
        if let some m := seen then
          if m.any (Scalar.sameKey (.str name)) then continue
          seen := some (m ++ [.str name])
        match fields.find? (·.key == name) with
        | some f =>
          if done.contains name then
            note ("line " ++ toString k.line ++ ": field " ++ name ++ " already set in type " ++
              typeName)
          else
            done := name :: done
            r ← f.set fuel v r
        | none =>
          if (← get).strict then
            note ("line " ++ toString k.line ++ ": field " ++ name ++ " not found in type " ++
              typeName)
      modify fun d => { d with merged := seen }
      match source with
      | none => return (r, true)
      | some m =>
        return (← mergeInto (readAny fuel · (.leaf .null)) (readRecord typeName fields fuel)
          (entries.map (·.1)) m r, true)
    | .scalar text _ tag _ =>
      match (← scalarValue text tag).2 with
      | .null => return (r, false)
      | _ =>
        mismatch n typeName
        return (r, false)
    | _ =>
      mismatch n typeName
      return (r, false)

/-- Splits a text at commas, trims each part, and drops the empty ones. -/
def splitList (s : String) : List String :=
  (s.splitOn ",").map Text.trimBlank |>.filter (· != "")

/-- Reads a list of texts, written as a sequence or as one comma-separated scalar. The sequence
is decoded on its own; its mismatches join this decoding's and leave the list as it was. Any
other node stops the decoding. A node tagged as a null is read as a plain list. -/
def readTextList : Reader (List String)
  | 0, _, _ => tooDeep
  | fuel + 1, n, old => visit n fun n => do
    if (← shortTagOf n) == "!!null" then
      match n with
      | .sequence items _ _ =>
        let mut out : Array String := #[]
        for item in items do
          let (v, ok) ← readText "string" fuel item ""
          if ok then out := out.push v
        return (out.toList, true)
      | .scalar text _ tag _ =>
        match (← scalarValue text tag).2 with
        | .null => return ([], true)
        | _ =>
          mismatch n "config.StringList"
          return (old, false)
      | _ =>
        mismatch n "config.StringList"
        return (old, false)
    else
      match n with
      | .scalar text .. => return (splitList text, true)
      | .sequence .. =>
        match ← detached (readList "[]string" "" (readText "string")) n none with
        | .ok items => return (items.getD [], true)
        | .error (.typeMismatch lines) =>
          modify fun d => { d with mismatches := d.mismatches ++ lines.toArray }
          return (old, false)
        | .error f => throw f
      | _ => throw (.plain ("line " ++ toString n.line ++
          ": expected a list or a comma-separated string"))

/-- Decodes a document's root into a value over `init`; mismatches make it fail. A strict
decoding refuses keys that name no field of a record. -/
def Document.decode {α : Type} (doc : Document) (strict : Bool) (read : Reader α) (init : α) :
    Except Failure α := do
  let run : Decode α := do
    step
    return (← read doc.bound doc.root init).1
  let (v, d) ← run.run { doc, strict }
  if d.mismatches.isEmpty then return v else throw (.typeMismatch d.mismatches.toList)

end CycleSched.Yaml
