import CycleSched.Yaml.Token

/-!
# Cutting YAML text into tokens

The scanner reads a text one character at a time and queues tokens for the structure reader,
which takes them from the front. Block collections have no brackets: the scanner tracks the
indentation of the open ones, and when a line starts further left it closes them with block-end
tokens; when a key starts a deeper mapping or a dash a deeper sequence, it opens one.

A key written without `?` is only known to be a key when its `:` follows. So each flow level
remembers where such a simple key may have started; when the `:` comes, a key token (and, when
needed, a mapping start) is put into the queue before the key's own tokens. A simple key must fit
on one line and within 1024 characters; one that starts a line at the indentation of its
mapping is required, and losing it is an error.

The reader of tokens asks for one token at a time, and the scanner then reads until the queue
holds that token and two more, and until the first queued token is no longer a possible simple
key. Which error a broken text reports depends on this: a problem a few tokens ahead is found
before the structure before it is checked.

The text is checked for characters it may not hold in chunks of 512 bytes, as it is read: a
forbidden character is reported as soon as the scanner needs a character from its chunk.

Comments are skipped. After most tokens, blanks and a comment to the end of the line are
skipped at once, and a comment followed by further comment lines skips those lines too, tabs
included.
-/

namespace CycleSched.Yaml

/-- A place where a simple key may have started at one flow level. -/
structure SimpleKey where
  possible : Bool := false
  required : Bool := false
  /-- The number of the key's first token, counted over the whole stream. -/
  tokenNumber : Nat := 0
  mark : Mark := {}
  deriving Repr, Inhabited

/-- The state of the scanner. -/
structure Scanner where
  input : Array Char
  /-- Needing the character at this index, or any later one, meets a character the input may
  not hold. -/
  readable : Nat
  pos : Nat := 0
  mark : Mark := {}
  /-- Line breaks read since the last character that is not blank. -/
  newlines : Nat := 0
  started : Bool := false
  ended : Bool := false
  flowLevel : Nat := 0
  /-- Tokens not yet taken, first one first. -/
  queue : Array Token := #[]
  /-- Tokens taken so far. -/
  taken : Nat := 0
  /-- The first queued token is ready to be taken. -/
  available : Bool := false
  indent : Int := -1
  indents : List Int := []
  keyAllowed : Bool := false
  /-- One possible simple key per flow level, the innermost last. -/
  keys : Array SimpleKey := #[]
  /-- The level of the possible simple key that starts at each token number. -/
  keyAt : List (Nat × Nat) := []
  deriving Inhabited

/-- Scanning: it changes the scanner and may stop with a reading problem. -/
abbrev Scan := StateT Scanner (Except ReadError)

/-- Characters whose start an input of at most 512 bytes per chunk decodes together, from byte
`start`: the index of the first character of the chunk that holds the first forbidden
character, or a bound past the end when there is none. -/
def readableLimit (start : Nat) (cs : Array Char) : Nat := Id.run do
  match cs.findIdx? (fun c => !isAllowedInput c) with
  | none => return cs.size + 8
  | some bad =>
    let mut chunkStart := 0
    let mut frontier := 0
    let mut offset := start
    for _ in [0:cs.size + 1] do
      let mut i := frontier
      let mut off := offset
      for _ in [0:cs.size + 1] do
        match cs[i]? with
        | some c =>
          if off + c.utf8Size ≤ chunkStart + 512 then
            i := i + 1
            off := off + c.utf8Size
          else break
        | none => break
      if bad < i then return frontier
      frontier := i
      offset := off
      chunkStart := off
    return frontier

/-- A scanner at the start of a text. A byte order mark at the very start is dropped. -/
def Scanner.ofText (text : String) : Scanner :=
  let cs := text.toList
  let (cs, start) := match cs with
    | '\uFEFF' :: rest => (rest, 3)
    | rest => (rest, 0)
  let input := cs.toArray
  { input, readable := readableLimit start input }

namespace Scanner

/-- The character `k` places after the current one; past the end, the character zero. -/
def charAt (s : Scanner) (k : Nat) : Char := (s.input[s.pos + k]?).getD '\x00'

/-- An upper bound on the steps of any loop over the rest of the text. -/
def steps (s : Scanner) : Nat := s.input.size - s.pos + 8

end Scanner

namespace Scan

/-- Stops with a problem found while cutting tokens, reported at `context`. -/
def fail {α : Type} (context : Mark) (problem : String) : Scan α := do
  throw (ReadError.ofScan context (← get).mark problem)

/-- Makes sure the next `n` characters may be read. -/
def need (n : Nat) : Scan Unit := do
  let s ← get
  if s.pos + n > s.readable then throw (ReadError.ofInput "control characters are not allowed")

/-- The character `k` places ahead. -/
def peekAt (k : Nat) : Scan Char := return (← get).charAt k

/-- The current character. -/
def cur : Scan Char := peekAt 0

/-- The current mark. -/
def here : Scan Mark := return (← get).mark

/-- Moves past the current character. -/
def skip : Scan Unit := modify fun s =>
  let c := s.charAt 0
  { s with
    pos := s.pos + 1
    newlines := if isBlank c then s.newlines else 0
    mark := { s.mark with index := s.mark.index + 1, column := s.mark.column + 1 } }

/-- Moves past the current character and gives it. -/
def read : Scan Char := do
  let c ← cur
  skip
  return c

/-- Moves past a line break (a carriage return and line feed count as one). -/
def skipLine : Scan Unit := modify fun s =>
  let c := s.charAt 0
  if c = '\r' && s.charAt 1 = '\n' then
    { s with
      pos := s.pos + 2
      newlines := s.newlines + 1
      mark := { index := s.mark.index + 2, line := s.mark.line + 1, column := 0 } }
  else if isBreak c then
    { s with
      pos := s.pos + 1
      newlines := s.newlines + 1
      mark := { index := s.mark.index + 1, line := s.mark.line + 1, column := 0 } }
  else s

/-- Moves past a line break and gives the text it stands for: a line feed, or the line or
paragraph separator itself. -/
def readLine : Scan String := do
  let c ← cur
  if isBreak c then
    skipLine
    return if c = '\u2028' || c = '\u2029' then String.singleton c else "\n"
  else return ""

/-- Skips spaces and tabs. -/
def skipBlanks : Scan Unit := do
  need 1
  for _ in [0:(← get).steps] do
    if !isBlank (← cur) then break
    skip
    need 1

/-- Puts a token at the end of the queue. -/
def append (t : Token) : Scan Unit := modify fun s => { s with queue := s.queue.push t }

/-- Puts a token into the queue before the one at position `i`. -/
def insertAt (i : Nat) (t : Token) : Scan Unit :=
  modify fun s => { s with queue := s.queue.insertIdxIfInBounds i t }

/-- Puts a token covering the indicator at the current place, and moves past it. -/
def indicator (kind : TokenKind) : Scan Unit := do
  let start ← here
  skip
  append ⟨kind, start, ← here⟩

/-- Drops the possible simple key of the current flow level; a required one is an error. -/
def removeSimpleKey : Scan Unit := do
  let s ← get
  let i := s.keys.size - 1
  let k := s.keys[i]?.getD {}
  if k.possible then
    if k.required then fail k.mark "could not find expected ':'"
    set { s with
      keys := s.keys.modify i fun k => { k with possible := false }
      keyAt := s.keyAt.filter (·.1 != k.tokenNumber) }

/-- Remembers that a simple key may start at the current place, when one may. -/
def saveSimpleKey : Scan Unit := do
  let s ← get
  if s.keyAllowed then
    let key : SimpleKey := {
      possible := true
      required := s.flowLevel = 0 && s.indent = (s.mark.column : Int)
      tokenNumber := s.taken + s.queue.size
      mark := s.mark }
    removeSimpleKey
    modify fun s =>
      let i := s.keys.size - 1
      { s with
        keys := s.keys.modify i fun _ => key
        keyAt := (key.tokenNumber, i) :: s.keyAt.filter (·.1 != key.tokenNumber) }

/-- Whether the simple key of level `i` is still possible: it must be on the current line and
less than 1024 characters back. One that is no longer possible is dropped, and if it was
required, that is an error. -/
def keyValid (i : Nat) : Scan Bool := do
  let s ← get
  let k := s.keys[i]?.getD {}
  if !k.possible then return false
  if k.mark.line < s.mark.line || k.mark.index + 1024 < s.mark.index then
    if k.required then fail k.mark "could not find expected ':'"
    set { s with keys := s.keys.modify i fun k => { k with possible := false } }
    return false
  return true

/-- Enters a flow collection. -/
def increaseFlowLevel : Scan Unit := do
  modify fun s => { s with keys := s.keys.push { mark := s.mark }, flowLevel := s.flowLevel + 1 }
  let s ← get
  if s.flowLevel > 10000 then fail s.mark "exceeded max depth of 10000"

/-- Leaves a flow collection. -/
def decreaseFlowLevel : Scan Unit := modify fun s =>
  if s.flowLevel > 0 then
    let last := s.keys.back?.getD {}
    { s with
      flowLevel := s.flowLevel - 1
      keyAt := s.keyAt.filter (·.1 != last.tokenNumber)
      keys := s.keys.pop }
  else s

/-- In block context, opens a collection at `column` if it is deeper than the current
indentation: the start token goes before token number `number`, or at the end. -/
def rollIndent (column : Int) (number : Option Nat) (kind : TokenKind) (mark : Mark) :
    Scan Unit := do
  let s ← get
  if s.flowLevel = 0 && s.indent < column then
    set { s with indents := s.indent :: s.indents, indent := column }
    if s.indents.length + 1 > 10000 then
      fail ((s.keys.back?.map (·.mark)).getD s.mark) "exceeded max depth of 10000"
    let t : Token := ⟨kind, mark, mark⟩
    match number with
    | some n => insertAt (n - s.taken) t
    | none => append t

/-- In block context, closes every collection deeper than `column`. -/
def unrollIndent (column : Int) (scanMark : Mark) : Scan Unit := do
  if (← get).flowLevel > 0 then return
  let blockMark := { scanMark with index := scanMark.index - 1 }
  for _ in [0:(← get).indents.length + 1] do
    let s ← get
    if s.indent ≤ column then break
    append ⟨.blockEnd, blockMark, blockMark⟩
    match s.indents with
    | i :: rest => modify fun s => { s with indent := i, indents := rest }
    | [] => modify fun s => { s with indent := -1 }

/-- Skips the blanks and the comment that end the current line, when a comment follows; the
line break stays. Nothing is skipped after a line break was read. -/
def skipLineComment : Scan Unit := do
  if (← get).newlines > 0 then return
  for peek in [0:512] do
    need (peek + 1)
    let c ← peekAt peek
    if isBlank c then continue
    if c = '#' then
      let seen := (← get).pos + peek
      for _ in [0:(← get).steps] do
        need 1
        let d ← cur
        if isBreakOrEnd d then
          if (← get).pos ≥ seen then break
          need 2
          skipLine
        else skip
    break

/-- Skips a comment at the current place and the comment lines that follow it, up to the end of
the last of them; blank and empty lines between them go too. -/
def skipComments : Scan Unit := do
  let mut peek := 0
  for _ in [0:(← get).steps + 512] do
    if peek ≥ 512 then break
    need (peek + 1)
    let s ← get
    let c := s.charAt peek
    if isBlank c then
      peek := peek + 1
      continue
    let closeFlow := s.flowLevel > 0 && (c = ']' || c = '}')
    if closeFlow || isBreakOrEnd c then
      if !isBreak c then break
      peek := peek + 1
      continue
    if c != '#' then break
    let seen := s.pos + peek
    for _ in [0:(← get).steps] do
      need 1
      let d ← cur
      if isBreakOrEnd d then
        if (← get).pos ≥ seen then break
        need 2
        skipLine
      else skip
    peek := 1

/-- Skips blanks, comments and line breaks up to the next token. A byte order mark at the start
of a line is skipped. Tabs are skipped only inside flow collections or where no simple key may
start. A line break in block context lets a simple key start. -/
def skipToToken : Scan Unit := do
  for _ in [0:(← get).steps] do
    need 1
    if (← here).column = 0 && (← cur) = '\uFEFF' then skip
    need 1
    for _ in [0:(← get).steps] do
      let s ← get
      let c := s.charAt 0
      if c = ' ' || ((s.flowLevel > 0 || !s.keyAllowed) && c = '\t') then
        skip
        need 1
      else break
    if (← cur) = '#' then skipComments
    if isBreak (← cur) then
      need 2
      skipLine
      if (← get).flowLevel = 0 then modify fun s => { s with keyAllowed := true }
    else break

/-! ## Directives -/

/-- Reads a run of word characters. -/
def readWord : Scan String := do
  need 1
  let mut out := ""
  for _ in [0:(← get).steps] do
    if !isWordChar (← cur) then break
    out := out.push (← read)
    need 1
  return out

/-- Reads the number of a `%YAML` directive: at most two digits. -/
def versionNumber (start : Mark) : Scan Nat := do
  need 1
  let mut value := 0
  let mut length := 0
  for _ in [0:(← get).steps] do
    let c ← cur
    if !('0' ≤ c && c ≤ '9') then break
    length := length + 1
    if length > 2 then fail start "found extremely long version number"
    value := value * 10 + (c.toNat - 48)
    skip
    need 1
  if length = 0 then fail start "did not find expected version number"
  return value

/-- Reads a tag handle: `!`, then word characters, then `!` if there is one. In a `%TAG`
directive the handle must end with `!` unless it is `!` alone. -/
def tagHandle (directive : Bool) (start : Mark) : Scan String := do
  need 1
  if (← cur) != '!' then fail start "did not find expected '!'"
  let mut s := String.singleton (← read)
  need 1
  s := s ++ (← readWord)
  if (← cur) = '!' then
    s := s.push (← read)
  else if directive && s != "!" then fail start "did not find expected '!'"
  return s

/-- A character that may stand in a tag. -/
def isUriChar (c : Char) : Bool :=
  isWordChar c || ";/?:@&=+$,.!~*'()[]%".contains c

/-- The number of bytes of a UTF-8 sequence its leading byte announces, or zero. -/
def leadWidth (b : Nat) : Nat :=
  if b < 0x80 then 1
  else if b / 32 = 6 then 2
  else if b / 16 = 14 then 3
  else if b / 8 = 30 then 4
  else 0

/-- The character of a UTF-8 sequence given as bytes. -/
def decodeUtf8 : List Nat → Char
  | [a] => Char.ofNat a
  | [a, b] => Char.ofNat ((a % 32) * 64 + b % 64)
  | [a, b, c] => Char.ofNat ((a % 16) * 4096 + (b % 64) * 64 + c % 64)
  | [a, b, c, d] => Char.ofNat ((a % 8) * 262144 + (b % 64) * 4096 + (c % 64) * 64 + d % 64)
  | _ => '\uFFFD'

/-- Reads `%xx` escapes for one UTF-8 character. -/
def uriEscapes (start : Mark) : Scan Char := do
  let mut width := 1024
  let mut bytes : List Nat := []
  for _ in [0:5] do
    if width = 0 then break
    need 3
    let s ← get
    if !(s.charAt 0 = '%' && isHexDigit (s.charAt 1) && isHexDigit (s.charAt 2)) then
      fail start "did not find URI escaped octet"
    let octet := hexValue (s.charAt 1) * 16 + hexValue (s.charAt 2)
    if width = 1024 then
      width := leadWidth octet
      if width = 0 then fail start "found an incorrect leading UTF-8 octet"
    else if octet / 64 != 2 then fail start "found an incorrect trailing UTF-8 octet"
    bytes := bytes ++ [octet]
    skip; skip; skip
    width := width - 1
  return decodeUtf8 bytes

/-- Reads the characters of a tag, after `head` (whose leading `!` is not part of it). -/
def tagUri (head : String) (start : Mark) : Scan String := do
  let mut s := String.ofList (head.toList.drop 1)
  let mut found := !head.isEmpty
  need 1
  for _ in [0:(← get).steps] do
    let c ← cur
    if !isUriChar c then break
    if c = '%' then s := s.push (← uriEscapes start)
    else s := s.push (← read)
    need 1
    found := true
  if !found then fail start "did not find expected tag URI"
  return s

/-- Reads a directive line: `%YAML major.minor` or `%TAG handle prefix`, then blanks and a
comment up to the line break. -/
def scanDirective : Scan Token := do
  let start ← here
  skip
  let name ← readWord
  if name.isEmpty then fail start "could not find expected directive name"
  if !isBlankOrEnd (← cur) then fail start "found unexpected non-alphabetical character"
  let kind ←
    if name = "YAML" then do
      skipBlanks
      let major ← versionNumber start
      if (← cur) != '.' then fail start "did not find expected digit or '.' character"
      skip
      let minor ← versionNumber start
      pure (TokenKind.versionDirective major minor)
    else if name = "TAG" then do
      skipBlanks
      let handle ← tagHandle true start
      need 1
      if !isBlank (← cur) then fail start "did not find expected whitespace"
      skipBlanks
      let pfx ← tagUri "" start
      need 1
      if !isBlankOrEnd (← cur) then fail start "did not find expected whitespace or line break"
      pure (TokenKind.tagDirective handle pfx)
    else fail start "found unknown directive name"
  let stop ← here
  skipBlanks
  if (← cur) = '#' then
    for _ in [0:(← get).steps] do
      if isBreakOrEnd (← cur) then break
      skip
      need 1
  if !isBreakOrEnd (← cur) then fail start "did not find expected comment or line break"
  if isBreak (← cur) then
    need 2
    skipLine
  return ⟨kind, start, stop⟩

/-! ## Anchors and tags -/

/-- Reads an anchor `&name` or an alias `*name`. The name must be followed by a blank, the end,
or one of `?:,]}%@` and a backtick. -/
def scanAnchor (isAlias : Bool) : Scan Token := do
  let start ← here
  skip
  let name ← readWord
  let stop ← here
  let c ← cur
  if name.isEmpty || !(isBlankOrEnd c || "?:,]\x7d%@`".contains c) then
    fail start "did not find expected alphabetic or numeric character"
  return ⟨if isAlias then .alias name else .anchor name, start, stop⟩

/-- Reads a tag: `!<uri>`, `!handle!suffix`, `!suffix`, or `!` alone. It must be followed by a
blank or the end, or inside a flow collection by a comma. -/
def scanTag : Scan Token := do
  let start ← here
  need 2
  let (handle, suffix) ←
    if (← peekAt 1) = '<' then do
      skip; skip
      let suffix ← tagUri "" start
      if (← cur) != '>' then fail start "did not find the expected '>'"
      skip
      pure ("", suffix)
    else do
      let handle ← tagHandle false start
      if handle.length > 1 && handle.startsWith "!" && handle.endsWith "!" then
        pure (handle, ← tagUri "" start)
      else
        let suffix ← tagUri handle start
        if suffix.isEmpty then pure ("", "!") else pure ("!", suffix)
  need 1
  let c ← cur
  if !isBlankOrEnd c then
    if (← get).flowLevel = 0 || c != ',' then
      fail start "did not find expected whitespace or line break"
  return ⟨.tag handle suffix, start, ← here⟩

/-! ## Block scalars -/

/-- Skips the indentation and the empty lines before a line of a block scalar, collecting the
line breaks. When the indentation is not known yet, it becomes the deepest indentation of the
empty lines or of the first line with content, at least one more than the enclosing one. -/
def blockBreaks (indent : Nat) (start : Mark) : Scan (Nat × String × Mark) := do
  let mut indent := indent
  let mut breaks := ""
  let mut stop ← here
  let mut maxIndent := 0
  for _ in [0:(← get).steps] do
    need 1
    for _ in [0:(← get).steps] do
      let s ← get
      if (indent = 0 || s.mark.column < indent) && s.charAt 0 = ' ' then
        skip
        need 1
      else break
    let s ← get
    if s.mark.column > maxIndent then maxIndent := s.mark.column
    if (indent = 0 || s.mark.column < indent) && s.charAt 0 = '\t' then
      fail start "found a tab character where an indentation space is expected"
    if !isBreak (s.charAt 0) then break
    need 2
    breaks := breaks ++ (← readLine)
    stop ← here
  if indent = 0 then
    let outer := (← get).indent + 1
    indent := max 1 (max maxIndent outer.toNat)
  return (indent, breaks, stop)

/-- Reads a literal (`|`) or folded (`>`) block scalar: its header with optional chomping and
indentation indicators, then its lines. -/
def scanBlockScalar (literal : Bool) : Scan Token := do
  let start ← here
  skip
  need 1
  let mut chomping : Int := 0
  let mut increment := 0
  let c ← cur
  if c = '+' || c = '-' then
    chomping := if c = '+' then 1 else -1
    skip
    need 1
    let d ← cur
    if '0' ≤ d && d ≤ '9' then
      if d = '0' then fail start "found an indentation indicator equal to 0"
      increment := d.toNat - 48
      skip
  else if '0' ≤ c && c ≤ '9' then
    if c = '0' then fail start "found an indentation indicator equal to 0"
    increment := c.toNat - 48
    skip
    need 1
    let d ← cur
    if d = '+' || d = '-' then
      chomping := if d = '+' then 1 else -1
      skip
  skipBlanks
  if (← cur) = '#' then
    skipLineComment
    for _ in [0:(← get).steps] do
      if isBreakOrEnd (← cur) then break
      skip
      need 1
  if !isBreakOrEnd (← cur) then fail start "did not find expected comment or line break"
  if isBreak (← cur) then
    need 2
    skipLine
  let outer := (← get).indent
  let indent0 : Nat :=
    if increment > 0 then (if outer ≥ 0 then outer.toNat + increment else increment) else 0
  let (indent, breaks0, stop0) ← blockBreaks indent0 start
  let mut stop := stop0
  let mut trailingBreaks := breaks0
  let mut text := ""
  let mut leadingBreak := ""
  let mut leadingBlank := false
  need 1
  for _ in [0:(← get).steps] do
    let s ← get
    if !(s.mark.column = indent && !isEnd (s.charAt 0)) then break
    let trailingBlank := isBlank (s.charAt 0)
    if !literal && !leadingBlank && !trailingBlank && leadingBreak.front = '\n' &&
        !leadingBreak.isEmpty then
      if trailingBreaks.isEmpty then text := text.push ' '
    else text := text ++ leadingBreak
    leadingBreak := ""
    text := text ++ trailingBreaks
    trailingBreaks := ""
    leadingBlank := isBlank (s.charAt 0)
    for _ in [0:(← get).steps] do
      if isBreakOrEnd (← cur) then break
      text := text.push (← read)
      need 1
    need 2
    leadingBreak := leadingBreak ++ (← readLine)
    let (_, breaks, stop') ← blockBreaks indent start
    trailingBreaks := trailingBreaks ++ breaks
    stop := stop'
  if chomping != -1 then text := text ++ leadingBreak
  if chomping = 1 then text := text ++ trailingBreaks
  return ⟨.scalar text (if literal then .literal else .folded), start, stop⟩

/-! ## Flow scalars -/

/-- The four characters at the current place make a document marker `---` or `...` at the
start of a line. -/
def atDocumentMarker : Scan Bool := do
  let s ← get
  let a := s.charAt 0
  return s.mark.column = 0 && (a = '-' || a = '.') && s.charAt 1 = a && s.charAt 2 = a &&
    isBlankOrEnd (s.charAt 3)

/-- The character an escape letter stands for in a double-quoted scalar. -/
def escapeChar (c : Char) : Option Char :=
  match c with
  | '0' => some '\x00'
  | 'a' => some '\x07'
  | 'b' => some '\x08'
  | 't' => some '\t'
  | '\t' => some '\t'
  | 'n' => some '\n'
  | 'v' => some '\x0b'
  | 'f' => some '\x0c'
  | 'r' => some '\r'
  | 'e' => some '\x1b'
  | ' ' => some ' '
  | '"' => some '"'
  | '\'' => some '\''
  | '\\' => some '\\'
  | 'N' => some '\x85'
  | '_' => some '\xa0'
  | 'L' => some '\u2028'
  | 'P' => some '\u2029'
  | _ => none

/-- Reads a single- or double-quoted scalar. Line breaks inside fold like those of plain
scalars; a double-quoted scalar has backslash escapes, and a backslash at the end of a line
joins the lines. -/
def scanFlowScalar (single : Bool) : Scan Token := do
  let start ← here
  skip
  let mut text := ""
  let mut leadingBreak := ""
  let mut trailingBreaks := ""
  let mut whitespaces := ""
  for _ in [0:(← get).steps] do
    need 4
    if ← atDocumentMarker then fail start "found unexpected document indicator"
    if isEnd (← cur) then fail start "found unexpected end of stream"
    let mut leadingBlanks := false
    for _ in [0:(← get).steps] do
      let s ← get
      let c := s.charAt 0
      if isBlankOrEnd c then break
      if single && c = '\'' && s.charAt 1 = '\'' then
        text := text.push '\''
        skip; skip
      else if single && c = '\'' then break
      else if !single && c = '"' then break
      else if !single && c = '\\' && isBreak (s.charAt 1) then
        need 3
        skip
        skipLine
        leadingBlanks := true
        break
      else if !single && c = '\\' then
        let e := s.charAt 1
        let codeLength := if e = 'x' then 2 else if e = 'u' then 4 else if e = 'U' then 8 else 0
        if codeLength = 0 then
          match escapeChar e with
          | some ch => text := text.push ch
          | none => fail start "found unknown escape character"
        skip; skip
        if codeLength > 0 then
          need codeLength
          let s ← get
          let mut value := 0
          for k in [0:codeLength] do
            let h := s.charAt k
            if !isHexDigit h then fail start "did not find expected hexdecimal number"
            value := value * 16 + hexValue h
          if (0xD800 ≤ value && value ≤ 0xDFFF) || value > 0x10FFFF then
            fail start "found invalid Unicode character escape code"
          text := text.push (Char.ofNat value)
          for _ in [0:codeLength] do skip
      else text := text.push (← read)
      need 2
    need 1
    let c ← cur
    if (single && c = '\'') || (!single && c = '"') then break
    for _ in [0:(← get).steps] do
      let c ← cur
      if !(isBlank c || isBreak c) then break
      if isBlank c then
        if !leadingBlanks then whitespaces := whitespaces.push (← read) else skip
      else
        need 2
        if !leadingBlanks then
          whitespaces := ""
          leadingBreak := leadingBreak ++ (← readLine)
          leadingBlanks := true
        else trailingBreaks := trailingBreaks ++ (← readLine)
      need 1
    if leadingBlanks then
      if !leadingBreak.isEmpty && leadingBreak.front = '\n' then
        if trailingBreaks.isEmpty then text := text.push ' ' else text := text ++ trailingBreaks
      else text := text ++ leadingBreak ++ trailingBreaks
      trailingBreaks := ""
      leadingBreak := ""
    else
      text := text ++ whitespaces
      whitespaces := ""
  skip
  return ⟨.scalar text (if single then .singleQuoted else .doubleQuoted), start, ← here⟩

/-! ## Plain scalars -/

/-- Reads a plain scalar. It ends at `: `, at a comment, at a document marker, inside a flow
collection at a flow indicator, and in block context at a line indented no deeper than the
enclosing collection. Lines are folded: one line break becomes a space, more keep all but one. -/
def scanPlainScalar : Scan Token := do
  let s0 ← get
  let indent : Int := s0.indent + 1
  let start := s0.mark
  let mut stop := s0.mark
  let mut text := ""
  let mut leadingBreak := ""
  let mut trailingBreaks := ""
  let mut whitespaces := ""
  let mut leadingBlanks := false
  for _ in [0:s0.steps] do
    need 4
    if ← atDocumentMarker then break
    if (← cur) = '#' then break
    for _ in [0:(← get).steps] do
      let s ← get
      let c := s.charAt 0
      if isBlankOrEnd c then break
      if (c = ':' && isBlankOrEnd (s.charAt 1)) ||
          (s.flowLevel > 0 && (c = ',' || c = '?' || c = '[' || c = ']' || c = '{' || c = '}')) then
        break
      if leadingBlanks || !whitespaces.isEmpty then
        if leadingBlanks then
          if leadingBreak.front = '\n' then
            if trailingBreaks.isEmpty then text := text.push ' ' else text := text ++ trailingBreaks
          else text := text ++ leadingBreak ++ trailingBreaks
          trailingBreaks := ""
          leadingBreak := ""
          leadingBlanks := false
        else
          text := text ++ whitespaces
          whitespaces := ""
      text := text.push (← read)
      stop ← here
      need 2
    let c ← cur
    if !(isBlank c || isBreak c) then break
    need 1
    for _ in [0:(← get).steps] do
      let s ← get
      let c := s.charAt 0
      if !(isBlank c || isBreak c) then break
      if isBlank c then
        if leadingBlanks && (s.mark.column : Int) < indent && c = '\t' then
          fail start "found a tab character that violates indentation"
        if !leadingBlanks then whitespaces := whitespaces.push (← read) else skip
      else
        need 2
        if !leadingBlanks then
          whitespaces := ""
          leadingBreak := leadingBreak ++ (← readLine)
          leadingBlanks := true
        else trailingBreaks := trailingBreaks ++ (← readLine)
      need 1
    let s ← get
    if s.flowLevel = 0 && (s.mark.column : Int) < indent then break
  if leadingBlanks then modify fun s => { s with keyAllowed := true }
  return ⟨.scalar text .plain, start, stop⟩

/-! ## Fetching tokens -/

/-- Starts the stream. -/
def fetchStreamStart : Scan Unit := do
  modify fun s => { s with
    indent := -1
    keys := s.keys.push {}
    keyAllowed := true
    started := true }
  let m ← here
  append ⟨.streamStart, m, m⟩

/-- Ends the stream: closes every block collection at a fresh line. -/
def fetchStreamEnd : Scan Unit := do
  let s ← get
  if s.mark.column != 0 then
    set { s with mark := { s.mark with column := 0, line := s.mark.line + 1 } }
  unrollIndent (-1) (← here)
  removeSimpleKey
  modify fun s => { s with keyAllowed := false }
  let m ← here
  append ⟨.streamEnd, m, m⟩

/-- Reads a directive. -/
def fetchDirective : Scan Unit := do
  unrollIndent (-1) (← here)
  removeSimpleKey
  modify fun s => { s with keyAllowed := false }
  append (← scanDirective)

/-- Reads a document marker `---` or `...`. -/
def fetchDocumentIndicator (kind : TokenKind) : Scan Unit := do
  unrollIndent (-1) (← here)
  removeSimpleKey
  modify fun s => { s with keyAllowed := false }
  let start ← here
  skip; skip; skip
  append ⟨kind, start, ← here⟩

/-- Reads `[` or `{`. -/
def fetchFlowCollectionStart (kind : TokenKind) : Scan Unit := do
  saveSimpleKey
  increaseFlowLevel
  modify fun s => { s with keyAllowed := true }
  indicator kind

/-- Reads `]` or `}`. -/
def fetchFlowCollectionEnd (kind : TokenKind) : Scan Unit := do
  removeSimpleKey
  decreaseFlowLevel
  modify fun s => { s with keyAllowed := false }
  indicator kind

/-- Reads `,`. -/
def fetchFlowEntry : Scan Unit := do
  removeSimpleKey
  modify fun s => { s with keyAllowed := true }
  indicator .flowEntry

/-- Reads `-` of a block sequence entry; in block context it may open a sequence. -/
def fetchBlockEntry : Scan Unit := do
  let s ← get
  if s.flowLevel = 0 then
    if !s.keyAllowed then fail s.mark "block sequence entries are not allowed in this context"
    rollIndent s.mark.column none .blockSequenceStart s.mark
  removeSimpleKey
  modify fun s => { s with keyAllowed := true }
  indicator .blockEntry

/-- Reads `?` of a complex key; in block context it may open a mapping. -/
def fetchKey : Scan Unit := do
  let s ← get
  if s.flowLevel = 0 then
    if !s.keyAllowed then fail s.mark "mapping keys are not allowed in this context"
    rollIndent s.mark.column none .blockMappingStart s.mark
  removeSimpleKey
  modify fun s => { s with keyAllowed := s.flowLevel = 0 }
  indicator .key

/-- Reads `:`. If a simple key is possible here, its key token (and in block context perhaps a
mapping start) goes before it; otherwise this is the value of a complex key. -/
def fetchValue : Scan Unit := do
  let s ← get
  let i := s.keys.size - 1
  if ← keyValid i then
    let k := (← get).keys[i]?.getD {}
    let s ← get
    insertAt (k.tokenNumber - s.taken) ⟨.key, k.mark, k.mark⟩
    rollIndent k.mark.column (some k.tokenNumber) .blockMappingStart k.mark
    modify fun s => { s with
      keys := s.keys.modify i fun k => { k with possible := false }
      keyAt := s.keyAt.filter (·.1 != k.tokenNumber)
      keyAllowed := false }
  else
    let s ← get
    if s.flowLevel = 0 then
      if !s.keyAllowed then fail s.mark "mapping values are not allowed in this context"
      rollIndent s.mark.column none .blockMappingStart s.mark
    modify fun s => { s with keyAllowed := s.flowLevel = 0 }
  indicator .value

/-- Reads an anchor or an alias, which may start a simple key. -/
def fetchAnchor (isAlias : Bool) : Scan Unit := do
  saveSimpleKey
  modify fun s => { s with keyAllowed := false }
  append (← scanAnchor isAlias)

/-- Reads a tag, which may start a simple key. -/
def fetchTag : Scan Unit := do
  saveSimpleKey
  modify fun s => { s with keyAllowed := false }
  append (← scanTag)

/-- Reads a block scalar. -/
def fetchBlockScalar (literal : Bool) : Scan Unit := do
  removeSimpleKey
  modify fun s => { s with keyAllowed := true }
  append (← scanBlockScalar literal)

/-- Reads a quoted scalar, which may be a simple key. -/
def fetchFlowScalar (single : Bool) : Scan Unit := do
  saveSimpleKey
  modify fun s => { s with keyAllowed := false }
  append (← scanFlowScalar single)

/-- Reads a plain scalar, which may be a simple key. -/
def fetchPlainScalar : Scan Unit := do
  saveSimpleKey
  modify fun s => { s with keyAllowed := false }
  append (← scanPlainScalar)

/-- A character that cannot start a plain scalar unless the rules for `-`, `?` and `:` allow it. -/
def isIndicatorChar (c : Char) : Bool :=
  "-?:,[]\x7b\x7d#&*!|>'\"%@`".contains c

/-- Reads the token that starts with the current character, after blanks and comments. -/
def fetchToken : Scan Unit := do
  let s ← get
  let c := s.charAt 0
  let c1 := s.charAt 1
  if c = '[' then fetchFlowCollectionStart .flowSequenceStart
  else if c = '{' then fetchFlowCollectionStart .flowMappingStart
  else if c = ']' then fetchFlowCollectionEnd .flowSequenceEnd
  else if c = '}' then fetchFlowCollectionEnd .flowMappingEnd
  else if c = ',' then fetchFlowEntry
  else if c = '-' && isBlankOrEnd c1 then fetchBlockEntry
  else if c = '?' && (s.flowLevel > 0 || isBlankOrEnd c1) then fetchKey
  else if c = ':' && (s.flowLevel > 0 || isBlankOrEnd c1) then fetchValue
  else if c = '*' then fetchAnchor true
  else if c = '&' then fetchAnchor false
  else if c = '!' then fetchTag
  else if c = '|' && s.flowLevel = 0 then fetchBlockScalar true
  else if c = '>' && s.flowLevel = 0 then fetchBlockScalar false
  else if c = '\'' then fetchFlowScalar true
  else if c = '"' then fetchFlowScalar false
  else if !(isBlankOrEnd c || isIndicatorChar c) || (c = '-' && !isBlank c1) ||
      (s.flowLevel = 0 && (c = '?' || c = ':') && !isBlankOrEnd c1) then
    fetchPlainScalar
  else fail s.mark "found character that cannot start any token"

/-- Reads the next token, with what comes before it. -/
def fetchNextToken : Scan Unit := do
  need 1
  if !(← get).started then
    fetchStreamStart
    return
  let scanMark ← here
  skipToToken
  unrollIndent (← here).column scanMark
  need 4
  let s ← get
  let c := s.charAt 0
  if isEnd c then fetchStreamEnd
  else if s.mark.column = 0 && c = '%' then fetchDirective
  else if s.mark.column = 0 && c = '-' && s.charAt 1 = '-' && s.charAt 2 = '-' &&
      isBlankOrEnd (s.charAt 3) then
    fetchDocumentIndicator .documentStart
  else if s.mark.column = 0 && c = '.' && s.charAt 1 = '.' && s.charAt 2 = '.' &&
      isBlankOrEnd (s.charAt 3) then
    fetchDocumentIndicator .documentEnd
  else
    fetchToken
    if ((← get).queue.back?.map (·.kind == .blockEntry)).getD false then pure ()
    else skipLineComment

/-- Reads tokens until the queue holds the next one and two more, and the next one is not a
possible simple key. -/
def fetchMoreTokens : Scan Unit := do
  for _ in [0:(← get).steps + 16] do
    let s ← get
    let mut more := true
    if s.queue.size > 2 then
      match s.keyAt.lookup s.taken with
      | none => more := false
      | some i => more ← keyValid i
    if !more then break
    fetchNextToken
  modify fun s => { s with available := true }

/-- The next token, read if needed. -/
def peekToken : Scan Token := do
  if !(← get).available then fetchMoreTokens
  return (← get).queue[0]?.getD ⟨.streamEnd, (← here), (← here)⟩

/-- Takes the next token. -/
def skipToken : Scan Unit := modify fun s =>
  { s with
    available := false
    taken := s.taken + 1
    ended := (s.queue[0]?.map (·.kind == .streamEnd)).getD false
    queue := s.queue.extract 1 s.queue.size }

end Scan

end CycleSched.Yaml
