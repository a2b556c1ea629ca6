import StubDecl.Yaml.Token.Scalar

/-!
# Cutting a YAML stream into tokens

What each kind of token looks like, and which kind starts at a position. `Scan.fetch` finds the next
token; `Scan.more` finds as many as have to be known before the first of the queue may be handed out.
-/

namespace StubDecl.Yaml

namespace Read

/-- Characters of names: letters, digits, `_` and `-`. -/
def isNameChar (c : Char) : Bool := c.isAlphanum || c = '_' || c = '-'

/-- Characters of a tag. -/
def isUriChar (c : Char) : Bool :=
  isNameChar c || [';', '/', '?', ':', '@', '&', '=', '+', '$', ',', '.', '!', '~', '*', '\'', '(',
    ')', '[', ']', '%'].contains c

/-- The byte that the percent escape here stands for. -/
def uriOctet (start : Mark) : Read UInt8 := do
  need 3
  match ← hexNumber? 1 2 with
  | some v => if (← head) = '%' then return v.toUInt8 else fail start (.missing .uriEscape)
  | none => fail start (.missing .uriEscape)

/-- The bytes of `n` percent escapes that continue a character, the newest first. -/
def uriTrail (start : Mark) : Nat → Text → Read Text
  | 0, acc => return acc
  | n + 1, acc => do
    let b ← uriOctet start
    if !isTrail b then fail start (.unexpected .trailOctet)
    skips 3
    uriTrail start n (b :: acc)

/-- The bytes of the percent escapes of one character, the newest first. -/
def uriEscape (start : Mark) : Read Text := do
  let b ← uriOctet start
  match octetCount? b with
  | none => fail start (.unexpected .leadOctet)
  | some n =>
    skips 3
    uriTrail start (n - 1) [b]

/-- The characters of a tag here behind those in `acc`, the newest first. -/
def uriRest (start : Mark) : Nat → Text → Read Text
  | 0, acc => return acc
  | k + 1, acc => do
    let x ← head
    if isUriChar x then
      let bs ← (
        if x = '%' then uriEscape start
        else do
          skip
          return [x.toNat.toUInt8])
      need 1
      uriRest start k (bs ++ acc)
    else return acc

/-- The characters of a tag here. -/
def uri (start : Mark) : Read Text := do
  need 1
  return (← uriRest start (← bound) []).reverse

/-- The characters of a tag here, of which there have to be some. -/
def someUri (start : Mark) : Read Text := do
  let v ← uri start
  if v.isEmpty then fail start (.missing .uri) else return v

/-- The handle of a tag here: `!`, or a name between two of them. In a tag, the second may be
missing; then what was read is the start of the tag itself. -/
def handle (start : Mark) (directive : Bool) : Read Text := do
  need 1
  if (← head) ≠ '!' then fail start (.missing .exclamationMark)
  skip
  let name := Text.ofChars (← takeWhile isNameChar)
  if (← head) = '!' then
    skip
    return "!" ++ name ++ "!"
  else if directive && !name.isEmpty then fail start (.missing .exclamationMark)
  else return "!" ++ name

/-- The handle and the suffix of a tag here. An empty handle means that the tag is written in
full. -/
def tag (start : Mark) : Read (Text × Text) := do
  need 2
  if (← get 1) = '<' then
    skips 2
    let v ← someUri start
    if (← head) ≠ '>' then fail start (.missing .closingAngle)
    skip
    return ([], v)
  else
    let h ← handle start false
    if h.length > 1 && h.getLast? = some 0x21 then return (h, ← someUri start)
    else
      let v := h.drop 1 ++ (← uri start)
      return if v.isEmpty then ([], "!") else ("!", v)

/-- The number of a version here, of at most two digits. -/
def versionNumber (start : Mark) : Nat → Nat → Nat → Read Nat
  | 0, _, n => return n
  | k + 1, digits, n => do
    let x ← head
    if x.isDigit then
      if digits = 2 then fail start (.unexpected .longVersion)
      skip
      need 1
      versionNumber start k (digits + 1) (n * 10 + (x.toNat - 48))
    else if digits = 0 then fail start (.missing .versionNumber)
    else return n

/-- The content of a directive behind its name. -/
def directiveContent (start : Mark) (name : List Char) : Read TokenKind := do
  if name = ['Y', 'A', 'M', 'L'] then
    skipWhile isGap
    let major ← versionNumber start 4 0 0
    if (← head) ≠ '.' then fail start (.missing .digitOrPoint)
    skip
    need 1
    return .version major (← versionNumber start 4 0 0)
  else if name = ['T', 'A', 'G'] then
    skipWhile isGap
    let h ← handle start true
    need 1
    if !isGap (← head) then fail start (.missing .gap)
    skipWhile isGap
    let v ← someUri start
    need 1
    if !isWordEnd (← head) then fail start (.missing .wordEnd)
    return .tagDirective h v
  else fail start (.unexpected .unknownDirective)

/-- A directive behind its percent sign. -/
def directive (start : Mark) : Read TokenKind := do
  let name ← takeWhile isNameChar
  if name.isEmpty then fail start (.missing .directiveName)
  if !isWordEnd (← head) then fail start (.unexpected .nameCharacter)
  let kind ← directiveContent start name
  endLine start
  return kind

/-- The name of an anchor or alias behind its indicator. -/
def anchorName (start : Mark) : Read Text := do
  let name ← takeWhile isNameChar
  let x ← head
  if name.isEmpty || !(isWordEnd x || ['?', ':', ',', ']', '\x7d', '%', '@', '\x60'].contains x) then
    fail start (.missing .nameCharacter)
  else return Text.ofChars name

end Read

namespace Scan

/-! ## Anchors, tags and directives -/

/-- An alias or an anchor. -/
def fetchAnchor (kind : Text → TokenKind) : Scan PUnit := do
  saveKey
  allowKey false
  let start ← Read.mark
  Read.skip
  let name ← Read.anchorName start
  push (kind name) start.line

/-- A tag. -/
def fetchTag : Scan PUnit := do
  saveKey
  allowKey false
  let start ← Read.mark
  let (h, suffix) ← Read.tag start
  Read.need 1
  if !isWordEnd (← Read.head) then Read.fail start (.missing .wordEnd)
  push (.tag h suffix) start.line

/-- Ends all block collections, as directives and document markers do. -/
def endBlocks : Scan PUnit := do
  unroll (-1) (← Read.mark).line
  dropKey
  allowKey false

/-- A directive. -/
def fetchDirective : Scan PUnit := do
  endBlocks
  let start ← Read.mark
  Read.skip
  let kind ← Read.directive start
  push kind start.line

/-! ## Indicators -/

/-- A document marker. -/
def fetchMarker (kind : TokenKind) : Scan PUnit := do
  endBlocks
  pushHere kind 3

/-- The start of a flow collection. -/
def fetchFlowStart (kind : TokenKind) : Scan PUnit := do
  saveKey
  openFlow
  allowKey true
  pushHere kind 1

/-- The end of a flow collection. -/
def fetchFlowEnd (kind : TokenKind) : Scan PUnit := do
  dropKey
  closeFlow
  allowKey false
  pushHere kind 1

/-- A comma between entries of a flow collection. -/
def fetchFlowEntry : Scan PUnit := do
  dropKey
  allowKey true
  pushHere .flowEntry 1

/-- Opens a block collection of a kind here, if this is a block context, where an indicator is only
allowed where a key may start. -/
def openBlock (kind : TokenKind) (misplaced : Misplaced) : Scan PUnit := do
  let s ← get
  if s.flow = 0 then
    if !s.keyAllowed then Read.fail s.at_.mark (.misplaced misplaced)
    roll s.at_.mark.column none kind s.at_.mark.line

/-- A dash before an entry of a block sequence. -/
def fetchBlockEntry : Scan PUnit := do
  openBlock .blockSequenceStart .blockEntry
  dropKey
  allowKey true
  pushHere .blockEntry 1

/-- A question mark before a key. -/
def fetchKey : Scan PUnit := do
  openBlock .blockMappingStart .key
  dropKey
  allowKey ((← get).flow = 0)
  pushHere .key 1

/-- A colon before a value. What may have been a key is one if that is still possible. -/
def fetchValue : Scan PUnit := do
  let k ← key
  if ← stillPossible k then
    insertAt k.number .key k.mark.line
    roll k.mark.column (some k.number) .blockMappingStart k.mark.line
    setKey { k with possible := false, waits := false }
    allowKey false
  else
    openBlock .blockMappingStart .value
    allowKey ((← get).flow = 0)
  pushHere .value 1

/-- The end of the stream. -/
def fetchEnd : Scan PUnit := do
  modify fun s =>
    let m := s.at_.mark
    if m.column = 0 then s
    else { s with at_ := { s.at_ with mark := { m with line := m.line + 1, column := 0 } } }
  endBlocks
  push .streamEnd (← Read.mark).line

/-! ## The next token -/

/-- Characters that start no plain scalar. -/
def isIndicator (c : Char) : Bool :=
  ['-', '?', ':', ',', '[', ']', '\x7b', '\x7d', '#', '&', '*', '!', '|', '>', '\'', '"', '%', '@',
    '\x60'].contains c

/-- The token that starts here, which is neither a marker nor the end. -/
def fetchHere : Scan PUnit := do
  let s ← get
  let x := s.at_.get 0
  let y := s.at_.get 1
  if x = '[' then fetchFlowStart .flowSequenceStart
  else if x = '\x7b' then fetchFlowStart .flowMappingStart
  else if x = ']' then fetchFlowEnd .flowSequenceEnd
  else if x = '\x7d' then fetchFlowEnd .flowMappingEnd
  else if x = ',' then fetchFlowEntry
  else if x = '-' && isWordEnd y then fetchBlockEntry
  else if x = '?' && (s.flow > 0 || isWordEnd y) then fetchKey
  else if x = ':' && (s.flow > 0 || isWordEnd y) then fetchValue
  else if x = '*' then fetchAnchor .alias
  else if x = '&' then fetchAnchor .anchor
  else if x = '!' then fetchTag
  else if x = '|' && s.flow = 0 then fetchBlockScalar true
  else if x = '>' && s.flow = 0 then fetchBlockScalar false
  else if x = '\'' then fetchQuoted true
  else if x = '"' then fetchQuoted false
  else if !(isWordEnd x || isIndicator x) || (x = '-' && !isGap y) ||
      (s.flow = 0 && (x = '?' || x = ':') && !isWordEnd y) then fetchPlain
  else Read.fail s.at_.mark (.unexpected .strayCharacter)

/-- The next token, with the block collections that end before it. -/
def fetch : Scan PUnit := do
  Read.need 1
  let before ← Read.mark
  toNextToken
  let m ← Read.mark
  unroll m.column before.line
  Read.need 4
  let c := (← get).at_
  if c.head = endMark then fetchEnd
  else if c.mark.column = 0 && c.head = '%' then fetchDirective
  else if c.atMarker '-' then fetchMarker .documentStart
  else if c.atMarker '.' then fetchMarker .documentEnd
  else
    fetchHere
    lineComment

/-- Finds tokens until there are three in the queue and the first need not wait. -/
def more : Nat → Scan PUnit
  | 0 => pure ⟨⟩
  | k + 1 => do
    let enough := !((← get).queue.drop 2).isEmpty
    if enough && !(← headWaits) then pure ⟨⟩
    else
      fetch
      more k

end Scan

end StubDecl.Yaml
