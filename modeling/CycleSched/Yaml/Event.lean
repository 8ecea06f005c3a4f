import CycleSched.Yaml.Scanner

/-!
# Reading the structure of YAML tokens

The structure reader turns tokens into events: the start and end of the stream, of each
document, sequence and mapping, and each scalar and alias, with the anchor and resolved tag a
node carries. It is a state machine with a stack of states to come back to, one state per place
in the grammar: the start of a document, a block node, the first or a later entry of a block or
flow sequence, the key or value of a block or flow mapping, and so on.

A node with no content where one is expected (a key without a value, an entry with nothing after
the dash) reads as an empty plain scalar. A tag is written with a handle, which a `%TAG`
directive or the defaults `!` and `!!` (for `tag:yaml.org,2002:`) expand. Only version 1.1 of a
`%YAML` directive is accepted.
-/

namespace CycleSched.Yaml

/-- What an event is, with the data it carries. -/
inductive EventKind where
  | streamStart
  | streamEnd
  | documentStart
  | documentEnd
  | alias (name : String)
  | scalar (anchor : Option String) (tag text : String) (style : Style)
  | sequenceStart (anchor : Option String) (tag : String) (flow : Bool)
  | sequenceEnd
  | mappingStart (anchor : Option String) (tag : String) (flow : Bool)
  | mappingEnd
  deriving Repr, Inhabited, BEq

/-- An event and the marks where it starts and ends. -/
structure Event where
  kind : EventKind
  start : Mark
  stop : Mark
  deriving Repr, Inhabited

/-- The places in the grammar the structure reader can be at. -/
inductive Place where
  | streamStart
  | implicitDocumentStart
  | documentStart
  | documentContent
  | documentEnd
  | blockNode
  | blockNodeOrIndentlessSequence
  | flowNode
  | blockSequenceFirstEntry
  | blockSequenceEntry
  | indentlessSequenceEntry
  | blockMappingFirstKey
  | blockMappingKey
  | blockMappingValue
  | flowSequenceFirstEntry
  | flowSequenceEntry
  | flowSequenceEntryMappingKey
  | flowSequenceEntryMappingValue
  | flowSequenceEntryMappingEnd
  | flowMappingFirstKey
  | flowMappingKey
  | flowMappingValue
  | flowMappingEmptyValue
  | finished
  deriving Repr, Inhabited, BEq

/-- The state of the structure reader. -/
structure Parser where
  scanner : Scanner
  place : Place := .streamStart
  /-- Places to come back to, the next one first. -/
  returns : List Place := []
  /-- Start marks of the open collections, the innermost first. -/
  opened : List Mark := []
  /-- Tag handles and the prefixes they stand for. -/
  handles : List (String × String) := []
  deriving Inhabited

/-- Reading the structure: it changes the reader and may stop with a reading problem. -/
abbrev Parse := StateT Parser (Except ReadError)

/-- The handles every document knows. -/
def defaultHandles : List (String × String) := [("!", "!"), ("!!", "tag:yaml.org,2002:")]

namespace Parse

/-- Runs a scanning step on the reader's scanner. -/
def scan {α : Type} (m : Scan α) : Parse α := do
  let p ← get
  let (a, s) ← (m.run p.scanner : Except ReadError (α × Scanner))
  set { p with scanner := s }
  return a

/-- The next token. -/
def peekToken : Parse Token := scan Scan.peekToken

/-- Takes the next token. -/
def skipToken : Parse Unit := scan Scan.skipToken

/-- Stops with a problem at `problemMark`. -/
def fail {α : Type} (problem : String) (problemMark : Mark) : Parse α :=
  throw (ReadError.ofStructure {} problemMark problem)

/-- Stops with a problem at `problemMark` found in the construct that starts at `context`. -/
def failIn {α : Type} (context : Mark) (problem : String) (problemMark : Mark) : Parse α :=
  throw (ReadError.ofStructure context problemMark problem)

/-- Goes on at `place`. -/
def goTo (place : Place) : Parse Unit := modify fun p => { p with place }

/-- Remembers `back` as the place to come back to after the node that follows. -/
def push (back : Place) : Parse Unit := modify fun p => { p with returns := back :: p.returns }

/-- Goes back to the place last pushed. -/
def pop : Parse Unit := modify fun p =>
  match p.returns with
  | r :: rest => { p with place := r, returns := rest }
  | [] => { p with place := .finished }

/-- Remembers the start of a collection. -/
def openAt (m : Mark) : Parse Unit := modify fun p => { p with opened := m :: p.opened }

/-- Forgets the start of the innermost collection and gives it. -/
def close : Parse Mark := do
  let p ← get
  match p.opened with
  | m :: rest =>
    set { p with opened := rest }
    return m
  | [] => return {}

/-- An empty plain scalar at `m`. -/
def emptyScalar (m : Mark) : Event := ⟨.scalar none "" "" .plain, m, m⟩

/-- Adds a tag handle; a handle given twice by directives is an error, a default one is
skipped when a directive gave it. -/
def addHandle (handle pfx : String) (allowRepeat : Bool) (m : Mark) : Parse Unit := do
  let p ← get
  if p.handles.any (·.1 == handle) then
    if allowRepeat then return
    fail "found duplicate %TAG directive" m
  set { p with handles := p.handles ++ [(handle, pfx)] }

/-- Reads the directives before a document. -/
def directives : Parse Unit := do
  let mut sawVersion := false
  for _ in [0:(← get).scanner.steps] do
    let t ← peekToken
    match t.kind with
    | .versionDirective major minor =>
      if sawVersion then fail "found duplicate %YAML directive" t.start
      if major != 1 || minor != 1 then fail "found incompatible YAML document" t.start
      sawVersion := true
    | .tagDirective handle pfx => addHandle handle pfx false t.start
    | _ => break
    skipToken
  let t ← peekToken
  for (h, pfx) in defaultHandles do addHandle h pfx true t.start

/-- Reads the start of the stream. -/
def streamStart : Parse Event := do
  let t ← peekToken
  if t.kind != .streamStart then fail "did not find expected <stream-start>" t.start
  goTo .implicitDocumentStart
  skipToken
  return ⟨.streamStart, t.start, t.stop⟩

/-- Reads the start of a document, which may be implicit only for the first one; or the end of
the stream. -/
def documentStart (implicit : Bool) : Parse Event := do
  let mut t ← peekToken
  if !implicit then
    for _ in [0:(← get).scanner.steps] do
      if t.kind != .documentEnd then break
      skipToken
      t ← peekToken
  let isDirective := match t.kind with
    | .versionDirective .. | .tagDirective .. => true
    | _ => false
  if implicit && !isDirective && t.kind != .documentStart && t.kind != .streamEnd then
    directives
    push .documentEnd
    goTo .blockNode
    return ⟨.documentStart, t.start, t.stop⟩
  else if t.kind != .streamEnd then
    let start := t.start
    directives
    let d ← peekToken
    if d.kind != .documentStart then fail "did not find expected <document start>" d.start
    push .documentEnd
    goTo .documentContent
    skipToken
    return ⟨.documentStart, start, d.stop⟩
  else
    goTo .finished
    skipToken
    return ⟨.streamEnd, t.start, t.stop⟩

/-- Reads the end of a document, which may be implicit. -/
def documentEnd : Parse Event := do
  let t ← peekToken
  let mut stop := t.start
  if t.kind == .documentEnd then
    stop := t.stop
    skipToken
  modify fun p => { p with handles := [] }
  goTo .documentStart
  return ⟨.documentEnd, t.start, stop⟩

/-- Reads a node: an alias, or a scalar or collection with an optional anchor and tag. A block
sequence may stand without indentation under a mapping key when `indentless` holds. -/
def node (block indentless : Bool) : Parse Event := do
  let t ← peekToken
  if let .alias name := t.kind then
    pop
    skipToken
    return ⟨.alias name, t.start, t.stop⟩
  let start := t.start
  let mut stop := t.start
  let mut anchor : Option String := none
  let mut tagged : Option (String × String) := none
  let mut tagMark := t.start
  let mut t := t
  match t.kind with
  | .anchor name =>
    anchor := some name
    stop := t.stop
    skipToken
    t ← peekToken
    match t.kind with
    | .tag h s =>
      tagged := some (h, s)
      tagMark := t.start
      stop := t.stop
      skipToken
      t ← peekToken
    | _ => pure ()
  | .tag h s =>
    tagged := some (h, s)
    tagMark := t.start
    stop := t.stop
    skipToken
    t ← peekToken
    match t.kind with
    | .anchor name =>
      anchor := some name
      stop := t.stop
      skipToken
      t ← peekToken
    | _ => pure ()
  | _ => pure ()
  let tag ← match tagged with
    | none => pure ""
    | some (h, s) =>
      if h.isEmpty then pure s
      else match (← get).handles.lookup h with
        | some pfx => pure (pfx ++ s)
        | none => failIn start "found undefined tag handle" tagMark
  match t.kind with
  | .blockEntry =>
    if indentless then
      goTo .indentlessSequenceEntry
      return ⟨.sequenceStart anchor tag false, start, t.stop⟩
  | _ => pure ()
  match t.kind with
  | .scalar text style =>
    pop
    skipToken
    return ⟨.scalar anchor tag text style, start, t.stop⟩
  | .flowSequenceStart =>
    goTo .flowSequenceFirstEntry
    return ⟨.sequenceStart anchor tag true, start, t.stop⟩
  | .flowMappingStart =>
    goTo .flowMappingFirstKey
    return ⟨.mappingStart anchor tag true, start, t.stop⟩
  | .blockSequenceStart =>
    if block then
      goTo .blockSequenceFirstEntry
      return ⟨.sequenceStart anchor tag false, start, t.stop⟩
  | .blockMappingStart =>
    if block then
      goTo .blockMappingFirstKey
      return ⟨.mappingStart anchor tag false, start, t.stop⟩
  | _ => pure ()
  if anchor.isSome || !tag.isEmpty then
    pop
    return ⟨.scalar anchor tag "" .plain, start, stop⟩
  failIn start "did not find expected node content" t.start

/-- Reads an entry of a block sequence, or its end. -/
def blockSequenceEntry (first : Bool) : Parse Event := do
  if first then
    let t ← peekToken
    openAt t.start
    skipToken
  let t ← peekToken
  match t.kind with
  | .blockEntry =>
    let m := t.stop
    skipToken
    let t ← peekToken
    if t.kind != .blockEntry && t.kind != .blockEnd then
      push .blockSequenceEntry
      node true false
    else
      goTo .blockSequenceEntry
      return emptyScalar m
  | .blockEnd =>
    pop
    let _ ← close
    skipToken
    return ⟨.sequenceEnd, t.start, t.stop⟩
  | _ =>
    let m ← close
    failIn m "did not find expected '-' indicator" t.start

/-- Reads an entry of a sequence written without indentation under a mapping key, or its end. -/
def indentlessSequenceEntry : Parse Event := do
  let t ← peekToken
  if t.kind == .blockEntry then
    let m := t.stop
    skipToken
    let t ← peekToken
    if t.kind != .blockEntry && t.kind != .key && t.kind != .value && t.kind != .blockEnd then
      push .indentlessSequenceEntry
      node true false
    else
      goTo .indentlessSequenceEntry
      return emptyScalar m
  else
    pop
    return ⟨.sequenceEnd, t.start, t.start⟩

/-- Reads a key of a block mapping, or its end. -/
def blockMappingKey (first : Bool) : Parse Event := do
  if first then
    let t ← peekToken
    openAt t.start
    skipToken
  let t ← peekToken
  match t.kind with
  | .key =>
    let m := t.stop
    skipToken
    let t ← peekToken
    if t.kind != .key && t.kind != .value && t.kind != .blockEnd then
      push .blockMappingValue
      node true true
    else
      goTo .blockMappingValue
      return emptyScalar m
  | .blockEnd =>
    pop
    let _ ← close
    skipToken
    return ⟨.mappingEnd, t.start, t.stop⟩
  | _ =>
    let m ← close
    failIn m "did not find expected key" t.start

/-- Reads a value of a block mapping; a missing one is empty. -/
def blockMappingValue : Parse Event := do
  let t ← peekToken
  if t.kind == .value then
    let m := t.stop
    skipToken
    let t ← peekToken
    if t.kind != .key && t.kind != .value && t.kind != .blockEnd then
      push .blockMappingKey
      node true true
    else
      goTo .blockMappingKey
      return emptyScalar m
  else
    goTo .blockMappingKey
    return emptyScalar t.start

/-- Reads an entry of a flow sequence, or its end. An entry `? key : value` or `key: value`
is a mapping of one pair. -/
def flowSequenceEntry (first : Bool) : Parse Event := do
  if first then
    let t ← peekToken
    openAt t.start
    skipToken
  let mut t ← peekToken
  if t.kind != .flowSequenceEnd then
    if !first then
      if t.kind == .flowEntry then
        skipToken
        t ← peekToken
      else
        let m ← close
        failIn m "did not find expected ',' or ']'" t.start
    if t.kind == .key then
      goTo .flowSequenceEntryMappingKey
      skipToken
      return ⟨.mappingStart none "" true, t.start, t.stop⟩
    else if t.kind != .flowSequenceEnd then
      push .flowSequenceEntry
      return ← node false false
  pop
  let _ ← close
  skipToken
  return ⟨.sequenceEnd, t.start, t.stop⟩

/-- Reads the key of a one-pair mapping in a flow sequence. -/
def flowSequenceEntryMappingKey : Parse Event := do
  let t ← peekToken
  if t.kind != .value && t.kind != .flowEntry && t.kind != .flowSequenceEnd then
    push .flowSequenceEntryMappingValue
    node false false
  else
    let m := t.stop
    skipToken
    goTo .flowSequenceEntryMappingValue
    return emptyScalar m

/-- Reads the value of a one-pair mapping in a flow sequence. -/
def flowSequenceEntryMappingValue : Parse Event := do
  let t ← peekToken
  if t.kind == .value then
    skipToken
    let t ← peekToken
    if t.kind != .flowEntry && t.kind != .flowSequenceEnd then
      push .flowSequenceEntryMappingEnd
      return ← node false false
  goTo .flowSequenceEntryMappingEnd
  return emptyScalar t.start

/-- Ends a one-pair mapping in a flow sequence. -/
def flowSequenceEntryMappingEnd : Parse Event := do
  let t ← peekToken
  goTo .flowSequenceEntry
  return ⟨.mappingEnd, t.start, t.start⟩

/-- Reads a key of a flow mapping, or its end. -/
def flowMappingKey (first : Bool) : Parse Event := do
  if first then
    let t ← peekToken
    openAt t.start
    skipToken
  let mut t ← peekToken
  if t.kind != .flowMappingEnd then
    if !first then
      if t.kind == .flowEntry then
        skipToken
        t ← peekToken
      else
        let m ← close
        failIn m "did not find expected ',' or '\x7d'" t.start
    if t.kind == .key then
      skipToken
      let k ← peekToken
      if k.kind != .value && k.kind != .flowEntry && k.kind != .flowMappingEnd then
        push .flowMappingValue
        return ← node false false
      else
        goTo .flowMappingValue
        return emptyScalar k.start
    else if t.kind != .flowMappingEnd then
      push .flowMappingEmptyValue
      return ← node false false
  pop
  let _ ← close
  skipToken
  return ⟨.mappingEnd, t.start, t.stop⟩

/-- Reads a value of a flow mapping; a missing one is empty. -/
def flowMappingValue (empty : Bool) : Parse Event := do
  let t ← peekToken
  if empty then
    goTo .flowMappingKey
    return emptyScalar t.start
  if t.kind == .value then
    skipToken
    let t ← peekToken
    if t.kind != .flowEntry && t.kind != .flowMappingEnd then
      push .flowMappingKey
      return ← node false false
  goTo .flowMappingKey
  return emptyScalar t.start

/-- Reads the event at the current place. -/
def step : Parse Event := do
  match (← get).place with
  | .streamStart => streamStart
  | .implicitDocumentStart => documentStart true
  | .documentStart => documentStart false
  | .documentContent =>
    let t ← peekToken
    match t.kind with
    | .versionDirective .. | .tagDirective .. | .documentStart | .documentEnd | .streamEnd =>
      pop
      return emptyScalar t.start
    | _ => node true false
  | .documentEnd => documentEnd
  | .blockNode => node true false
  | .blockNodeOrIndentlessSequence => node true true
  | .flowNode => node false false
  | .blockSequenceFirstEntry => blockSequenceEntry true
  | .blockSequenceEntry => blockSequenceEntry false
  | .indentlessSequenceEntry => indentlessSequenceEntry
  | .blockMappingFirstKey => blockMappingKey true
  | .blockMappingKey => blockMappingKey false
  | .blockMappingValue => blockMappingValue
  | .flowSequenceFirstEntry => flowSequenceEntry true
  | .flowSequenceEntry => flowSequenceEntry false
  | .flowSequenceEntryMappingKey => flowSequenceEntryMappingKey
  | .flowSequenceEntryMappingValue => flowSequenceEntryMappingValue
  | .flowSequenceEntryMappingEnd => flowSequenceEntryMappingEnd
  | .flowMappingFirstKey => flowMappingKey true
  | .flowMappingKey => flowMappingKey false
  | .flowMappingValue => flowMappingValue false
  | .flowMappingEmptyValue => flowMappingValue true
  | .finished =>
    let m := (← get).scanner.mark
    return ⟨.streamEnd, m, m⟩

end Parse

end CycleSched.Yaml
