import StubDecl.Text.Base64
import StubDecl.Text.Quoted
import StubDecl.TypeTable
import StubDecl.Yaml.Document

/-!
# Typed values in a document

Reads texts, whole numbers, truth values, lists, maps and records off the nodes of a document. A
value of the wrong type is noted and leaves the place it was meant for unchanged; reading goes on, so
that all such places are reported together. A document whose reading is due to aliases for the most
part, after some length, is refused.
-/

namespace StubDecl.Yaml

/-- What has happened while reading off a document: the notes about values of the wrong type, the
newest first, the number of nodes read, and how many of them were reached through aliases. -/
structure Progress where
  notes : List Text := []
  visits : Nat := 1
  aliasVisits : Nat := 0

/-- The part of the visits that may be through aliases, in parts of 360 million: 99 in 100 up to
400000 visits, falling evenly to 10 in 100 at four million. -/
def Progress.aliasShare (p : Progress) : Nat := 356400000 - 89 * (min p.visits 4000000 - 400000)

/-- Whether too much of the work is due to aliases. -/
def Progress.isExcessive (p : Progress) : Bool :=
  100 < p.aliasVisits && 1000 < p.visits && p.visits * p.aliasShare < p.aliasVisits * 360000000

/-- Reading off a document. -/
abbrev Decode := ReaderT Document (StateT Progress (Except Fault))

namespace Decode

/-- Fails: the document cannot be read. -/
def fail {α : Type} (p : Problem) : Decode α := throw ⟨p, none⟩

/-- One more note. -/
def note (message : Text) : Decode PUnit := modify fun p => { p with notes := message :: p.notes }

/-- The text of a scalar; other nodes have none. -/
def valueText (n : Node) : Text :=
  match n.content with
  | .scalar v => v
  | .alias name _ => name
  | _ => []

/-- Notes that a node is not of the wanted type. The text of the node is shown, a long one cut. -/
def mistyped (n : Node) (tag type : Text) : Decode PUnit :=
  let tag := if n.tag.isEmpty then tag else n.tag
  let v := valueText n
  let shown : Text :=
    if tag = seqTag || tag = mapTag then v
    else if v.length > 10 then " \x60" ++ v.take 7 ++ "...\x60"
    else " \x60" ++ v ++ "\x60"
  note ("line " ++ Text.ofNat n.line ++ ": cannot unmarshal " ++ shortTag tag ++ shown ++ " into " ++ type)

/-- The node with a number. -/
def nodeAt (i : Nat) : Decode Node := return ((← read).node? i).getD ⟨nullTag, 0, .scalar []⟩

/-- The node with a number, or the one it is an alias of. -/
def target (i : Nat) : Decode Node := do
  let n ← nodeAt i
  match n.content with
  | .alias _ t => nodeAt t
  | _ => return n

/-- Counts a visit to a node on a path of aliases. -/
def visit (path : List Nat) : Decode PUnit := do
  modify fun p => { p with
    visits := p.visits + 1, aliasVisits := p.aliasVisits + if path.isEmpty then 0 else 1 }
  if (← get).isExcessive then fail .tooManyAliases

/-- Visits the node with a number, or the one it is an alias of. `path` has the aliases that are
being followed; following one inside itself would never end. -/
def follow (path : List Nat) (i : Nat) : Decode (List Nat × Node) := do
  visit path
  let n ← nodeAt i
  match n.content with
  | .alias name t =>
    if path.contains i then fail (.endlessAlias name)
    visit (i :: path)
    return (i :: path, ← nodeAt t)
  | _ => return (path, n)

/-- What a scalar stands for, with its tag. -/
def meaning (n : Node) (v : Text) : Decode (Text × ScalarValue) := do
  match resolve n.tag v with
  | none =>
    let tag := shortTag n.tag
    fail (.unfit (implicitValue (tag = timestampTag) v).tag v tag)
  | some (tag, x) =>
    if tag = binaryTag then
      match Base64.decode? v with
      | some data => return (tag, .text data)
      | none => fail .brokenBase64
    else return (tag, x)

/-- The kinds of nodes that can be equal as keys. -/
def sameKind : Content → Content → Bool
  | .scalar _, .scalar _ => true
  | .sequence _, .sequence _ => true
  | .mapping _, .mapping _ => true
  | .alias _ _, .alias _ _ => true
  | _, _ => false

/-- Notes the keys that occur again, and says whether there are none. -/
def distinctKeys (entries : List (Nat × Nat)) : Decode Bool := do
  let keys ← entries.mapM fun (k, _) => nodeAt k
  go true keys
where
  /-- Each key against the ones behind it. -/
  go (distinct : Bool) : List Node → Decode Bool
  | [] => pure distinct
  | n :: rest => do
    let again := rest.filter fun m => sameKind n.content m.content && valueText n = valueText m
    for m in again do
      note ("line " ++ Text.ofNat m.line ++ ": mapping key " ++ (valueText m).quoted ++
        " already defined at line " ++ Text.ofNat n.line)
    go (distinct && again.isEmpty) rest

/-! ## Scalars -/

/-- A scalar that `read` accepts, given its text, its tag and what it stands for. Null is no value
and no mistake either. -/
def scalar {α : Type} (type : Text) (read : Text → Text → ScalarValue → Option α) (path : List Nat)
    (i : Nat) : Decode (Option α) := do
  let (_, n) ← follow path i
  match n.content with
  | .scalar v =>
    let (tag, x) ← meaning n v
    match x with
    | .null => return none
    | _ =>
      match read v tag x with
      | some a => return some a
      | none =>
        mistyped n tag type
        return none
  | .sequence _ =>
    mistyped n seqTag type
    return none
  | .mapping es =>
    if ← distinctKeys es then mistyped n mapTag type
    return none
  | .alias _ _ => return none

/-- A text: any scalar, as it is written. -/
def text : List Nat → Nat → Decode (Option Text) :=
  scalar "string" fun v tag x =>
    match x with
    | .text t => if tag = binaryTag then some t else some v
    | _ => some v

/-- The whole part of a number, which has to be below 2^63 or just that. Numbers that 64 bits cannot
hold become the least one. -/
def truncate? (x : Float) : Option Int64 :=
  if x < 9223372036854775808.0 then some x.toInt64
  else if x == 9223372036854775808.0 then some Int64.minValue
  else none

/-- A whole number of 64 bits. -/
def int : List Nat → Nat → Decode (Option Int64) :=
  scalar "int" fun _ _ x =>
    match x with
    | .int n => if n < Word.half then some (Int64.ofInt n) else none
    | .float x => truncate? x
    | _ => none

/-- A truth value, also in the short spellings of older documents. -/
def bool : List Nat → Nat → Decode (Option Bool) :=
  scalar "bool" fun _ _ x =>
    match x with
    | .bool b => some b
    | .text t =>
      oldBool? t
    | _ => none

/-- A list of texts, without the items that are none. -/
def texts (path : List Nat) (i : Nat) : Decode (Option (List Text)) := do
  let type : Text := "[]string"
  let (path, n) ← follow path i
  match n.content with
  | .scalar v =>
    let (tag, x) ← meaning n v
    match x with
    | .null => return some []
    | _ =>
      mistyped n tag type
      return none
  | .sequence items => return some (← items.filterMapM (text path))
  | .mapping es =>
    if ← distinctKeys es then mistyped n mapTag type
    return none
  | .alias _ _ => return none

/-! ## Mappings -/

/-- Whether a key asks for the entries of another mapping. -/
def isMerge (n : Node) : Bool := n.content = .scalar "<<" && n.tag = mergeTag

/-- Whether a node is a mapping or an alias of one. -/
def isMapping (i : Nat) : Decode Bool := do
  match (← target i).content with
  | .mapping _ => return true
  | _ => return false

/-- The nodes whose entries a merge adds: one, or those of a sequence. -/
def mergeSources (i : Nat) : Decode (List Nat) := do
  match (← nodeAt i).content with
  | .sequence items => return items
  | _ => return [i]

/-- A key of a mapping that merges others, if it is a text. -/
def mergingKey (path : List Nat) (i : Nat) : Decode (Option Text) := do
  let (_, n) ← follow path i
  match n.content with
  | .scalar v =>
    match (← meaning n v).2 with
    | .text t => return some t
    | _ => return none
  | .mapping es => if ← distinctKeys es then fail .collectionKey else return none
  | _ => fail .collectionKey

/-- What is being filled from a mapping. `taken` has the keys that a merge may no longer set; it is
absent outside merges. `done` has the keys of this mapping that have been used. -/
structure Filling (σ : Type) where
  value : σ
  taken : Option (List Text) := none
  done : List Text := []
  merge : Option Nat := none

/-- Fills a value from the entries of a mapping and then from those it merges. `entry` deals with
one entry whose key is a text, given the number of key and value. -/
def fill {σ : Type} (entry : List Nat → Nat → Nat → Text → Filling σ → Decode (Filling σ)) :
    Nat → List Nat → List (Nat × Nat) → Filling σ → Decode (Filling σ)
  | 0, _, _, f => return f
  | fuel + 1, path, entries, f => do
    if !(← distinctKeys entries) then return f
    let g ← entries.foldlM (fun g (k, v) => do
      if isMerge (← nodeAt k) then return { g with merge := some v }
      match ← text path k with
      | none => return g
      | some name =>
        match g.taken with
        | some names =>
          if names.contains name then return g
          entry path k v name { g with taken := some (name :: names) }
        | none => entry path k v name g) { f with done := [], merge := none }
    match g.merge with
    | none => return g
    | some m =>
      let taken ← match g.taken with
        | some names => pure names
        | none => entries.filterMapM fun (k, _) => mergingKey path k
      let h ← (← mergeSources m).foldlM (fun h s => do
        if !(← isMapping s) then fail .mergeOfOther
        let (path, n) ← follow path s
        match n.content with
        | .mapping es => fill entry fuel path es h
        | _ => return h) { g with taken := some taken }
      return { h with taken := g.taken.bind fun _ => h.taken }

/-- How many mappings can be entered on the way to a value. -/
def depth : Decode Nat := do
  let n := (← read).nodes.size + 1
  return n * n

/-- A map of texts, added to an earlier one. A key with a null value is kept with an empty text
unless it was there. -/
def textMap (path : List Nat) (i : Nat) (old : TextMap) : Decode TextMap := do
  let type : Text := "map[string]string"
  let (path, n) ← follow path i
  match n.content with
  | .scalar v =>
    let (tag, x) ← meaning n v
    match x with
    | .null => return []
    | _ =>
      mistyped n tag type
      return old
  | .sequence _ =>
    mistyped n seqTag type
    return old
  | .mapping es =>
    let entry := fun path _ v name (f : Filling TextMap) => do
      match ← text path v with
      | some t => return { f with value := f.value.insert name t }
      | none =>
        let m ← target v
        if m.tag = nullTag && (f.value.get? name).isNone then
          return { f with value := f.value.insert name [] }
        else return f
    return (← fill entry (← depth) path es { value := old }).value
  | .alias _ _ => return old

/-- A kind of record: its name, and how a value is read into each field. -/
structure Record (σ : Type) where
  type : Text
  field? : Text → Option (List Nat → Nat → σ → Decode σ)

/-- Reads a mapping into a record. Unknown keys are ignored, and no field may be set twice. -/
def record {σ : Type} (r : Record σ) (path : List Nat) (i : Nat) (old : σ) : Decode σ := do
  let (path, n) ← follow path i
  match n.content with
  | .scalar v =>
    let (tag, x) ← meaning n v
    match x with
    | .null => return old
    | _ =>
      mistyped n tag r.type
      return old
  | .sequence _ =>
    mistyped n seqTag r.type
    return old
  | .mapping es =>
    let entry := fun path k v name (f : Filling σ) => do
      match r.field? name with
      | none => return f
      | some set =>
        if f.done.contains name then
          note ("line " ++ Text.ofNat (← nodeAt k).line ++ ": field " ++ name ++
            " already set in type " ++ r.type)
          return f
        else return { f with value := ← set path v f.value, done := name :: f.done }
    return (← fill entry (← depth) path es { value := old }).value
  | .alias _ _ => return old

/-- A field that is replaced by what `read` finds, if it finds something. -/
def replacing {σ α : Type} (read : List Nat → Nat → Decode (Option α)) (set : α → σ → σ) :
    List Nat → Nat → σ → Decode σ :=
  fun path i s => do
    match ← read path i with
    | some a => return set a s
    | none => return s

end Decode

/-- Reads the first document of a stream into a record. A stream without documents leaves it as it
is. The result has the record and the notes about values of the wrong type. -/
def decode {σ : Type} (r : Decode.Record σ) (stream : Text) (old : σ) : Except Fault (σ × List Text) := do
  let d ← Document.parse stream
  match d.root with
  | none => return (old, [])
  | some i =>
    let (v, p) ← (Decode.record r [] i old).run d |>.run {}
    return (v, p.notes.reverse)

end StubDecl.Yaml
