import CycleSched.Yaml.Event
import CycleSched.Yaml.Node

/-!
# Building YAML documents

The events of the first document of a stream are gathered into a tree of nodes. Each node gets
its tag here: an explicit tag in short form; else `!!str` for a quoted or block scalar, `!!merge`
for the plain key `<<`, `!!seq` or `!!map` for a collection, and the resolved tag of a plain
scalar's text. An anchor is given to its node as soon as the node starts, so an alias inside a
collection may stand for that very collection. An alias to an anchor not given before is an
error.

Only the first document is read; what follows it is read only as far as the scanner looks
ahead.
-/

namespace CycleSched.Yaml

/-- The state of document building. -/
structure Composer where
  parser : Parser
  /-- The event read but not yet used. -/
  pending : Option Event := none
  /-- Anchored nodes by anchor number; a collection's entry is filled in when it ends. -/
  anchored : Array Node := #[]
  /-- The anchor number each name was last given. -/
  names : List (String × Nat) := []
  /-- Aliases met so far. -/
  aliases : Nat := 0
  deriving Inhabited

/-- Building documents: it changes the state and may stop with a reading problem. -/
abbrev Compose := StateT Composer (Except ReadError)

namespace Compose

/-- The next event, read if needed. -/
def peek : Compose Event := do
  match (← get).pending with
  | some e => return e
  | none =>
    let c ← get
    let (e, p) ← (Parse.step.run c.parser : Except ReadError (Event × Parser))
    set { c with parser := p, pending := some e }
    return e

/-- Uses the next event. -/
def take : Compose Event := do
  let e ← peek
  modify fun c => { c with pending := none }
  return e

/-- Gives an anchor name the next anchor number. -/
def anchor (name : Option String) (n : Node) : Compose (Option Nat) := do
  match name with
  | none => return none
  | some a =>
    let c ← get
    let k := c.anchored.size
    set { c with anchored := c.anchored.push n, names := (a, k) :: c.names.filter (·.1 != a) }
    return some k

/-- Records the finished node of an anchor number. -/
def fill (k : Option Nat) (n : Node) : Compose Unit :=
  match k with
  | none => pure ()
  | some k => modify fun c => { c with anchored := c.anchored.modify k fun _ => n }

/-- The tag of a scalar node: its explicit tag, or the one its style and text give it. -/
def scalarTag (tag text : String) (style : Style) : String :=
  if tag != "" && tag != "!" then shortTag tag
  else if style != .plain then "!!str"
  else if text == "<<" then "!!merge"
  else plainTag text

/-- The tag of a collection node: its explicit tag, or the kind's own. -/
def collectionTag (tag default : String) : String :=
  if tag != "" && tag != "!" then shortTag tag else default

/-- Builds the node that starts with the next event. -/
def node : Nat → Compose Node
  | 0 => throw (ReadError.ofInput "document is nested too deeply")
  | fuel + 1 => do
    let e ← take
    let line := e.start.line + 1
    match e.kind with
    | .scalar a tag text style =>
      let n := Node.scalar text style (scalarTag tag text style) line
      let _ ← anchor a n
      return n
    | .alias name =>
      let c ← get
      match c.names.lookup name with
      | none => throw (ReadError.ofInput s!"unknown anchor '{name}' referenced")
      | some k =>
        set { c with aliases := c.aliases + 1 }
        return .alias name k c.aliases line
    | .sequenceStart a tag _ =>
      let tag := collectionTag tag "!!seq"
      let k ← anchor a (.sequence [] tag line)
      let mut items : Array Node := #[]
      for _ in [0:(← get).parser.scanner.steps * 2] do
        if (← peek).kind == .sequenceEnd then break
        items := items.push (← node fuel)
      let _ ← take
      let n := Node.sequence items.toList tag line
      fill k n
      return n
    | .mappingStart a tag _ =>
      let tag := collectionTag tag "!!map"
      let k ← anchor a (.mapping [] tag line)
      let mut entries : Array (Node × Node) := #[]
      for _ in [0:(← get).parser.scanner.steps * 2] do
        if (← peek).kind == .mappingEnd then break
        let key ← node fuel
        let value ← node fuel
        entries := entries.push (key, value)
      let _ ← take
      let n := Node.mapping entries.toList tag line
      fill k n
      return n
    | _ => throw (ReadError.ofInput "did not find expected node content")

/-- Builds the first document of the stream, if there is one. -/
def document : Compose (Option Document) := do
  let _ ← take
  if (← peek).kind == .streamEnd then return none
  let _ ← take
  let size := (← get).parser.scanner.input.size
  let root ← node (size + 16)
  let _ ← take
  let c ← get
  -- a path through the document meets each alias at most once, between nodes of the text
  return some ⟨root, c.anchored, 2 * (c.aliases + 1) * (size + 16)⟩

end Compose

/-- Reads the first document of a YAML text; `none` when the text holds no document. -/
def readDocument (text : String) : Except ReadError (Option Document) :=
  (Compose.document.run' { parser := { scanner := Scanner.ofText text } })

end CycleSched.Yaml
