import StubDecl.Yaml.Cursor

/-!
# YAML tokens

The tokens that a stream is cut into, and the state in which this is done. The scanner keeps the
indentation of the open block collections and, for every open flow collection, the place where a key
may have started: a `:` turns what began there into a key by inserting a key token in front of it.
Until that is settled, the tokens from there on wait in a queue.

* `Scan.push`, `Scan.insertAt`: a token at the end of the queue, or in front of earlier ones;
* `Scan.roll`, `Scan.unroll`: block collections are opened and closed by indentation;
* `Scan.saveKey`, `Scan.dropKey`: the place where a key may have started.
-/

namespace StubDecl.Yaml

/-- How a scalar was written. -/
inductive ScalarStyle where
  | plain
  | singleQuoted
  | doubleQuoted
  | literal
  | folded
  deriving DecidableEq, Repr

/-- The kinds of tokens. -/
inductive TokenKind where
  | streamStart
  | streamEnd
  | version (major minor : Nat)
  | tagDirective (handle expansion : Text)
  | documentStart
  | documentEnd
  | blockSequenceStart
  | blockMappingStart
  | blockEnd
  | flowSequenceStart
  | flowSequenceEnd
  | flowMappingStart
  | flowMappingEnd
  | blockEntry
  | flowEntry
  | key
  | value
  | alias (name : Text)
  | anchor (name : Text)
  | tag (handle suffix : Text)
  | scalar (value : Text) (style : ScalarStyle)
  deriving DecidableEq, Repr

/-- A token and the line it starts on, counted from 0. -/
structure Token where
  kind : TokenKind
  line : Nat
  deriving DecidableEq, Repr

/-- Where a key may have started: before which token, and whether one must have. `waits` says that
the token is not handed out before it is settled whether it starts a key. -/
structure KeyStart where
  possible : Bool := false
  required : Bool := false
  waits : Bool := false
  number : Nat := 0
  mark : Mark := {}
  deriving Repr

/-- The state of the scanner. `queue` has the tokens that have been found and not handed out, and
`taken` is the number of those handed out; `keys` has an entry for the block context and one for each
open flow collection, the innermost first. -/
structure TokenScanner where
  at_ : Cursor
  flow : Nat := 0
  indent : Int := -1
  indents : List Int := []
  keyAllowed : Bool := true
  keys : List KeyStart := [{}]
  queue : List Token := [⟨.streamStart, 0⟩]
  taken : Nat := 0
  deriving Repr

/-- Steps of the scanner. -/
abbrev Scan := StateT TokenScanner (Except Fault)

namespace Scan

/-- A step over the stream as a step of the scanner. -/
def read {α : Type} (r : Read α) : Scan α := fun s => do
  let (a, c) ← r s.at_
  return (a, { s with at_ := c })

instance : MonadLift Read Scan := ⟨read⟩

/-! ## The queue -/

/-- A token at the end of the queue. -/
def push (kind : TokenKind) (line : Nat) : Scan PUnit :=
  modify fun s => { s with queue := s.queue ++ [⟨kind, line⟩] }

/-- A token in front of the token with number `n`, or at the end if that has been handed out. -/
def insertAt (n : Nat) (kind : TokenKind) (line : Nat) : Scan PUnit :=
  modify fun s =>
    let k := if n < s.taken then s.queue.length else n - s.taken
    { s with queue := s.queue.take k ++ ⟨kind, line⟩ :: s.queue.drop k }

/-- A token of `n` characters that starts here. -/
def pushHere (kind : TokenKind) (n : Nat) : Scan PUnit := do
  let m ← Read.mark
  Read.skips n
  push kind m.line

/-- Says whether a key may start from here on. -/
def allowKey (b : Bool) : Scan PUnit := modify fun s => { s with keyAllowed := b }

/-! ## Keys -/

/-- The place where the innermost key may have started. -/
def key : Scan KeyStart := return (← get).keys.headD {}

/-- Replaces the place where the innermost key may have started. -/
def setKey (k : KeyStart) : Scan PUnit := modify fun s => { s with keys := k :: s.keys.drop 1 }

/-- Whether a key that may have started can still be one: it is on one line and has at most 1024
characters. -/
def stillPossible (k : KeyStart) : Scan Bool := do
  let m ← Read.mark
  if !k.possible then return false
  else if k.mark.line < m.line || k.mark.index + 1024 < m.index then
    if k.required then Read.fail k.mark (.missing .colon) else return false
  else return true

/-- The key that may have started is given up, which is an error if there must be one. -/
def dropKey : Scan PUnit := do
  let k ← key
  if k.possible then
    if k.required then Read.fail k.mark (.missing .colon)
    else setKey { k with possible := false, waits := false }

/-- A key may start here. One must start here if this is the indentation of an open block
collection. -/
def saveKey : Scan PUnit := do
  let s ← get
  if s.keyAllowed then
    dropKey
    setKey
      { possible := true, required := s.flow = 0 && s.indent = s.at_.mark.column, waits := true
        number := s.taken + s.queue.length, mark := s.at_.mark }

/-- Whether the next token has to wait until it is settled whether it starts a key. -/
def headWaits : Scan Bool := do
  let s ← get
  match s.keys.find? fun k => k.waits && k.number = s.taken with
  | some k => stillPossible k
  | none => return false

/-! ## Collections -/

/-- Enters a flow collection. -/
def openFlow : Scan PUnit := do
  modify fun s => { s with
    flow := s.flow + 1
    keys := { number := s.taken + s.queue.length, mark := s.at_.mark } :: s.keys }
  let s ← get
  if maxDepth < s.flow then Read.fail s.at_.mark .tooDeep

/-- Leaves a flow collection. If no key started in it behind its first token, what waits for that
token waits no longer. -/
def closeFlow : Scan PUnit :=
  modify fun s =>
    match s.flow, s.keys with
    | n + 1, k :: l :: ks => { s with
        flow := n
        keys := (if l.number = k.number then { l with waits := false } else l) :: ks }
    | _, _ => s

/-- Closes the block collections that are indented deeper than `column`. -/
def unroll (column : Int) (line : Nat) : Scan PUnit := do
  let s ← get
  if s.flow = 0 then go s.indents
where
  /-- One open collection after the other. -/
  go : List Int → Scan PUnit
  | [] => pure ⟨⟩
  | i :: is => do
    if column < (← get).indent then
      push .blockEnd line
      modify fun s => { s with indent := i, indents := is }
      go is

/-- Opens a block collection at `column` unless one is open there; its token goes in front of the
token with a given number, else to the end. -/
def roll (column : Nat) (number : Option Nat) (kind : TokenKind) (line : Nat) : Scan PUnit := do
  let s ← get
  if s.flow = 0 && s.indent < column then
    set { s with indents := s.indent :: s.indents, indent := column }
    if maxDepth ≤ s.indents.length then Read.fail (← key).mark .tooDeep
    match number with
    | some n => insertAt n kind line
    | none => push kind line

/-! ## Between tokens -/

/-- Past white space and comments to the next token. Tabs may not indent a line that can hold a
key, and a line may start with a byte order mark. -/
def toNextToken : Scan PUnit := do go (← Read.bound)
where
  /-- One line after the other. -/
  go : Nat → Scan PUnit
  | 0 => pure ⟨⟩
  | k + 1 => do
    Read.need 1
    let s ← get
    if s.at_.mark.column = 0 && s.at_.marked then Read.skip
    Read.skipWhile fun x => x = ' ' || (x = '\t' && (s.flow > 0 || !s.keyAllowed))
    if (← Read.head) = '#' then Read.skipComments
    if isBreak (← Read.head) then
      Read.skipBreak
      if s.flow = 0 then allowKey true
      go k

/-- Past a comment on the line of the token just read. -/
def lineComment : Scan PUnit := do
  let s ← get
  let entry := match s.queue.getLast? with
    | some t => t.kind = .blockEntry
    | none => false
  if !entry && !s.at_.fresh then Read.skipLineComment

end Scan

end StubDecl.Yaml
