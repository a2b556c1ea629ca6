import StubDecl.Yaml.Scalar
import StubDecl.Yaml.Token.Scan

/-!
# YAML documents

A document is a graph of nodes: aliases let a node occur in several places, even inside itself. So
the nodes stand in a table and refer to each other by number.

`Document.parse` reads the first document of a stream; what follows it is looked at only as far as the
tokens have to be known in advance. A stream without documents gives an empty table.
-/

namespace StubDecl.Yaml

/-- What a node consists of; nodes are referred to by their numbers. -/
inductive Content where
  | scalar (value : Text)
  | sequence (items : List Nat)
  | mapping (entries : List (Nat × Nat))
  | alias (name : Text) (target : Nat)
  deriving DecidableEq, Repr

/-- A node with its tag and the line it starts on, counted from 1. -/
structure Node where
  tag : Text
  line : Nat
  content : Content
  deriving DecidableEq, Repr

/-- The nodes of a document and the number of the outermost one, if there is one. -/
structure Document where
  nodes : Array Node := #[]
  root : Option Nat := none
  deriving Repr

namespace Document

/-- The node with a number. -/
def node? (d : Document) (i : Nat) : Option Node := d.nodes[i]?

end Document

/-! ## Reading tokens -/

/-- The state of the reader: the scanner, the handles of tags, the nodes so far and the anchors that
aliases may name. -/
structure Composer where
  scanner : TokenScanner
  handles : List (Text × Text) := []
  nodes : Array Node := #[]
  anchors : List (Text × Nat) := []

/-- Steps of the reader; they fail on a malformed stream. -/
abbrev Compose := StateT Composer (Except Fault)

namespace Compose

/-- Fails with a problem at a line, in something that starts on the line `context`. -/
def fail {α : Type} (context line : Nat) (p : Problem) : Compose α :=
  throw (.ofNode context line p)

/-- The next token. Behind the end of the stream the end repeats. -/
def peek : Compose Token := do
  let s ← get
  let (_, t) ← (Scan.more s.scanner.at_.bound).run s.scanner
  set { s with scanner := t }
  return t.queue.headD ⟨.streamEnd, t.at_.mark.line⟩

/-- Past the next token. -/
def skip : Compose PUnit :=
  modify fun s => { s with
    scanner := { s.scanner with queue := s.scanner.queue.drop 1, taken := s.scanner.taken + 1 } }

/-- Enters a node into the table. -/
def add (n : Node) : Compose Nat := do
  let s ← get
  set { s with nodes := s.nodes.push n }
  return s.nodes.size

/-- Gives a node that is already in the table its content. -/
def fill (i : Nat) (c : Content) : Compose PUnit :=
  modify fun s => { s with nodes := s.nodes.modify i fun n => { n with content := c } }

/-- Gives a node a name for aliases; an empty name is none. -/
def nameNode (name : Text) (i : Nat) : Compose PUnit :=
  if name.isEmpty then pure ⟨⟩
  else modify fun s => { s with anchors := (name, i) :: s.anchors }

/-- An absent scalar, which stands for null. -/
def empty (line : Nat) : Compose Nat := add ⟨nullTag, line + 1, .scalar []⟩

/-- A tag in full; the empty handle means that it is written so. The node that has it starts on the
line `first`, the tag itself is on `line`. -/
def fullTag (first line : Nat) (handle suffix : Text) : Compose Text := do
  if handle.isEmpty then return suffix
  let expanded := ((← get).handles.find? (·.1 = handle)).elim [] fun h => h.2 ++ suffix
  if expanded.isEmpty then fail first line (.unexpected .undefinedHandle) else return expanded

/-- The anchor and the tag in front of a node that starts on the line `first`, in either order. -/
def properties (first : Nat) : Compose (Text × Text) := do
  let tag := do
    let t ← peek
    match t.kind with
    | .tag h s =>
      skip
      return some (t.line, h, s)
    | _ => return none
  let anchor := do
    match (← peek).kind with
    | .anchor a =>
      skip
      return a
    | _ => return []
  let a ← anchor
  let t ← tag
  let a ← if a.isEmpty && t.isSome then anchor else pure a
  let _ ← peek
  match t with
  | some (line, h, s) => return (a, ← fullTag first line h s)
  | none => return (a, [])

/-- The tag of a collection: a given one, else the usual one. -/
def collectionTag (given usual : Text) : Text :=
  if given.isEmpty || given = "!" then usual else shortTag given

/-- The tag of a scalar: a given one, else text for a quoted scalar, and by its spelling for a
plain one. -/
def scalarTag (given value : Text) (style : ScalarStyle) : Text :=
  if !(given.isEmpty || given = "!") then shortTag given
  else if style ≠ .plain then strTag
  else if value = "<<" then mergeTag
  else (implicitValue true value).tag

/-- An alias of a node with an anchor. -/
def aliasNode (line : Nat) (name : Text) : Compose Nat := do
  match (← get).anchors.find? (·.1 = name) with
  | some (_, i) => add ⟨[], line + 1, .alias name i⟩
  | none => throw ⟨.unknownAnchor name, none⟩

mutual

/-- A node. Block collections are allowed if `block`, a block sequence without an indentation of
its own if `flat`. -/
def node (block flat : Bool) : Nat → Compose Nat
  | 0 => fail 0 0 (.missing .nodeContent)
  | k + 1 => do
    let first ← peek
    if let .alias name := first.kind then
      skip
      return ← aliasNode first.line name
    let (anchor, tag) ← properties first.line
    let enter (n : Node) : Compose Nat := do
      let i ← add n
      nameNode anchor i
      return i
    let collection (usual : Text) (c : Content) : Compose Nat :=
      enter ⟨collectionTag tag usual, first.line + 1, c⟩
    let scalar (v : Text) (style : ScalarStyle) : Compose Nat :=
      enter ⟨scalarTag tag v style, first.line + 1, .scalar v⟩
    let t ← peek
    match t.kind with
    | .scalar v style =>
      skip
      scalar v style
    | .flowSequenceStart =>
      let i ← collection seqTag (.sequence [])
      skip
      fill i (.sequence (← flowItems t.line true [] k))
      return i
    | .flowMappingStart =>
      let i ← collection mapTag (.mapping [])
      skip
      fill i (.mapping (← flowEntries t.line true [] k))
      return i
    | kind =>
      if flat && kind = .blockEntry then
        let i ← collection seqTag (.sequence [])
        fill i (.sequence (← flatItems [] k))
        return i
      else if block && kind = .blockSequenceStart then
        let i ← collection seqTag (.sequence [])
        skip
        fill i (.sequence (← blockItems t.line [] k))
        return i
      else if block && kind = .blockMappingStart then
        let i ← collection mapTag (.mapping [])
        skip
        fill i (.mapping (← blockEntries t.line [] k))
        return i
      else if !anchor.isEmpty || !tag.isEmpty then
        scalar [] .plain
      else fail first.line t.line (.missing .nodeContent)
termination_by structural k => k

/-- The node here, or an absent scalar if a token of `ends` stands here. -/
def nodeOrEmpty (block flat : Bool) (ends : List TokenKind) (line : Nat) : Nat → Compose Nat
  | 0 => fail 0 0 (.missing .nodeContent)
  | k + 1 => do
    if ends.contains (← peek).kind then empty line else node block flat k
termination_by structural k => k

/-- The items of a block sequence that starts on the line `start`, behind those in `items`, of
which the newest is first. -/
def blockItems (start : Nat) (items : List Nat) : Nat → Compose (List Nat)
  | 0 => fail 0 0 (.missing .nodeContent)
  | k + 1 => do
    let t ← peek
    match t.kind with
    | .blockEntry =>
      skip
      let i ← nodeOrEmpty true false [.blockEntry, .blockEnd] t.line k
      blockItems start (i :: items) k
    | .blockEnd =>
      skip
      return items.reverse
    | _ => fail start t.line (.missing .dash)
termination_by structural k => k

/-- The items of a block sequence that is indented like the mapping around it. -/
def flatItems (items : List Nat) : Nat → Compose (List Nat)
  | 0 => fail 0 0 (.missing .nodeContent)
  | k + 1 => do
    let t ← peek
    if t.kind = .blockEntry then
      skip
      let i ← nodeOrEmpty true false [.blockEntry, .key, .value, .blockEnd] t.line k
      flatItems (i :: items) k
    else return items.reverse
termination_by structural k => k

/-- The entries of a block mapping. -/
def blockEntries (start : Nat) (entries : List (Nat × Nat)) : Nat → Compose (List (Nat × Nat))
  | 0 => fail 0 0 (.missing .nodeContent)
  | k + 1 => do
    let t ← peek
    match t.kind with
    | .key =>
      skip
      let ends := [.key, .value, .blockEnd]
      let i ← nodeOrEmpty true true ends t.line k
      let u ← peek
      let j ← (
        if u.kind = .value then do
          skip
          nodeOrEmpty true true ends u.line k
        else empty u.line)
      blockEntries start ((i, j) :: entries) k
    | .blockEnd =>
      skip
      return entries.reverse
    | _ => fail start t.line (.missing .key)
termination_by structural k => k

/-- The items of a flow sequence. A key among them starts a mapping of one entry. -/
def flowItems (start : Nat) (first : Bool) (items : List Nat) : Nat → Compose (List Nat)
  | 0 => fail 0 0 (.missing .nodeContent)
  | k + 1 => do
    let t ← peek
    if t.kind ≠ .flowSequenceEnd && !first then
      if t.kind = .flowEntry then skip else fail start t.line (.missing .commaOrBracket)
    let t ← peek
    match t.kind with
    | .flowSequenceEnd =>
      skip
      return items.reverse
    | .key =>
      skip
      let i ← add ⟨mapTag, t.line + 1, .mapping []⟩
      let u ← peek
      let a ← (
        if [TokenKind.value, .flowEntry, .flowSequenceEnd].contains u.kind then do
          skip
          empty u.line
        else node false false k)
      let u ← peek
      let b ← (
        if u.kind = .value then do
          skip
          nodeOrEmpty false false [.flowEntry, .flowSequenceEnd] u.line k
        else empty u.line)
      fill i (.mapping [(a, b)])
      flowItems start false (i :: items) k
    | _ =>
      let i ← node false false k
      flowItems start false (i :: items) k
termination_by structural k => k

/-- The entries of a flow mapping. A key without a mark has no value. -/
def flowEntries (start : Nat) (first : Bool) (entries : List (Nat × Nat)) :
    Nat → Compose (List (Nat × Nat))
  | 0 => fail 0 0 (.missing .nodeContent)
  | k + 1 => do
    let t ← peek
    if t.kind ≠ .flowMappingEnd && !first then
      if t.kind = .flowEntry then skip else fail start t.line (.missing .commaOrBrace)
    let t ← peek
    match t.kind with
    | .flowMappingEnd =>
      skip
      return entries.reverse
    | .key =>
      skip
      let u ← peek
      let a ← nodeOrEmpty false false [.value, .flowEntry, .flowMappingEnd] u.line k
      let u ← peek
      let b ← (
        if u.kind = .value then do
          skip
          let w ← peek
          nodeOrEmpty false false [.flowEntry, .flowMappingEnd] w.line k
        else empty u.line)
      flowEntries start false ((a, b) :: entries) k
    | _ =>
      let a ← node false false k
      let b ← empty (← peek).line
      flowEntries start false ((a, b) :: entries) k
termination_by structural k => k

end

/-- The directives here. Only version 1.1 is known, and nothing may be declared twice. -/
def directives (version : Bool) : Nat → Compose PUnit
  | 0 => pure ⟨⟩
  | k + 1 => do
    let t ← peek
    match t.kind with
    | .version major minor =>
      if version then fail 0 t.line (.unexpected .secondVersion)
      if major ≠ 1 || minor ≠ 1 then fail 0 t.line (.unexpected .otherVersion)
      skip
      directives true k
    | .tagDirective h e =>
      if (← get).handles.any (·.1 = h) then fail 0 t.line (.unexpected .secondHandle)
      modify fun s => { s with handles := s.handles ++ [(h, e)] }
      skip
      directives version k
    | _ => pure ⟨⟩

/-- The handles that every document knows. -/
def usualHandles : List (Text × Text) := [("!", "!"), ("!!", "tag:yaml.org,2002:")]

/-- Whether a token ends the directives or the content of a document. -/
def isOutside : TokenKind → Bool
  | .version _ _ | .tagDirective _ _ | .documentStart | .documentEnd | .streamEnd => true
  | _ => false

/-- The first document, or none if the stream has none. -/
def document (size : Nat) : Compose (Option Nat) := do
  let _ ← peek
  skip
  let t ← peek
  if t.kind = .streamEnd then return none
  let explicit := isOutside t.kind && t.kind ≠ .documentEnd
  if explicit then directives false size
  modify fun s => { s with
    handles := s.handles ++ usualHandles.filter fun h => !(s.handles.any (·.1 = h.1)) }
  if explicit then
    let u ← peek
    if u.kind ≠ .documentStart then fail 0 u.line (.missing .documentStart)
    skip
  let w ← peek
  let i ← if explicit && isOutside w.kind then empty w.line else node true false size
  let _ ← peek
  return some i

end Compose

/-- Reads the first document of a stream. -/
def Document.parse (stream : Text) : Except Fault Document := do
  let c := Cursor.ofStream (Stream.ofText stream)
  let (root, s) ← (Compose.document (16 * c.bound)).run { scanner := { at_ := c } }
  return { nodes := s.nodes, root := root }

end StubDecl.Yaml
