import StubDecl.Json.Read
import StubDecl.Json.Text

/-!
# Records of the cache

A cached block is the rendered declaration block of one file with the digest of the content it was
rendered from. Blocks and run statistics are kept as JSON objects. A member of a record that has the
wrong type is passed over, and the record counts as damaged.
-/

namespace StubDecl

/-- The rendered block of a file, and what it declares. -/
structure CachedBlock where
  path : Text := []
  hash : Text := []
  block : Text := []
  className : Text := []
  parent : Text := []
  methodCount : Int64 := 0
  variableCount : Int64 := 0
  deriving DecidableEq, Repr

/-- What a run did: files by how they were dealt with, declarations, and bytes. -/
structure RunStats where
  converted : Int64 := 0
  cached : Int64 := 0
  pruned : Int64 := 0
  classCount : Int64 := 0
  methodCount : Int64 := 0
  variableCount : Int64 := 0
  bytes : Int64 := 0
  deriving DecidableEq, Repr

namespace Record

/-- A field of a record in JSON. -/
def field (name : Text) (v : Text) : Text := Json.string name ++ ":" ++ v

/-- A record in JSON. -/
def object (fields : List Text) : Text := "\x7b" ++ Text.joinWith "," fields ++ "\x7d"

/-- A number in JSON. -/
def number (n : Int64) : Text := Text.ofInt n.toInt

/-- A value for a text: null leaves the old one, and any other type is a mistake. -/
def readText (old : Text) : Json.Scalar → Text × Bool
  | .string t => (t, true)
  | .null => (old, true)
  | _ => (old, false)

/-- A value for a number: null leaves the old one, and what is not a whole number of 64 bits is a
mistake. -/
def readNumber (old : Int64) : Json.Scalar → Int64 × Bool
  | .number t =>
    match Json.int64? t with
    | some n => (n, true)
    | none => (old, false)
  | .null => (old, true)
  | _ => (old, false)

/-- Reads a record with a rule for each member; the flag says that it is not damaged. -/
def read {σ : Type} (initial : σ) (member : σ → Text → Json.Scalar → σ × Bool) (t : Text) : σ × Bool :=
  match Json.parse t with
  | none => (initial, false)
  | some (.other .null) => (initial, true)
  | some (.other _) => (initial, false)
  | some (.object ms) =>
    ms.foldl (fun (s, good) (k, v) =>
      let (s, g) := member s k v
      (s, good && g)) (initial, true)

end Record

namespace CachedBlock

open Record

/-- A block as a record; a class without parent has no such member. -/
def toRecord (b : CachedBlock) : Text :=
  object ([field "path" (Json.string b.path), field "content_hash" (Json.string b.hash),
    field "block" (Json.string b.block), field "class_name" (Json.string b.className)] ++
    (if b.parent.isEmpty then [] else [field "extends" (Json.string b.parent)]) ++
    [field "methods" (number b.methodCount), field "variables" (number b.variableCount)])

/-- The block with one member of a record read. -/
def readMember (b : CachedBlock) (k : Text) (v : Json.Scalar) : CachedBlock × Bool :=
  if Json.names k "path" then
    let (x, g) := readText b.path v
    ({ b with path := x }, g)
  else if Json.names k "content_hash" then
    let (x, g) := readText b.hash v
    ({ b with hash := x }, g)
  else if Json.names k "block" then
    let (x, g) := readText b.block v
    ({ b with block := x }, g)
  else if Json.names k "class_name" then
    let (x, g) := readText b.className v
    ({ b with className := x }, g)
  else if Json.names k "extends" then
    let (x, g) := readText b.parent v
    ({ b with parent := x }, g)
  else if Json.names k "methods" then
    let (x, g) := readNumber b.methodCount v
    ({ b with methodCount := x }, g)
  else if Json.names k "variables" then
    let (x, g) := readNumber b.variableCount v
    ({ b with variableCount := x }, g)
  else (b, true)

/-- Reads a record; the flag says that it is not damaged. -/
def ofRecord (t : Text) : CachedBlock × Bool := Record.read {} readMember t

end CachedBlock

namespace RunStats

open Record

/-- Statistics as a record. -/
def toRecord (s : RunStats) : Text :=
  object [field "FilesConverted" (number s.converted), field "FilesCached" (number s.cached),
    field "FilesPruned" (number s.pruned), field "Classes" (number s.classCount),
    field "Methods" (number s.methodCount), field "Variables" (number s.variableCount),
    field "BytesWritten" (number s.bytes)]

/-- The statistics with one member of a record read. -/
def readMember (s : RunStats) (k : Text) (v : Json.Scalar) : RunStats × Bool :=
  if Json.names k "FilesConverted" then
    let (x, g) := readNumber s.converted v
    ({ s with converted := x }, g)
  else if Json.names k "FilesCached" then
    let (x, g) := readNumber s.cached v
    ({ s with cached := x }, g)
  else if Json.names k "FilesPruned" then
    let (x, g) := readNumber s.pruned v
    ({ s with pruned := x }, g)
  else if Json.names k "Classes" then
    let (x, g) := readNumber s.classCount v
    ({ s with classCount := x }, g)
  else if Json.names k "Methods" then
    let (x, g) := readNumber s.methodCount v
    ({ s with methodCount := x }, g)
  else if Json.names k "Variables" then
    let (x, g) := readNumber s.variableCount v
    ({ s with variableCount := x }, g)
  else if Json.names k "BytesWritten" then
    let (x, g) := readNumber s.bytes v
    ({ s with bytes := x }, g)
  else (s, true)

/-- Reads a record; the flag says that it is not damaged. -/
def ofRecord (t : Text) : RunStats × Bool := Record.read {} readMember t

end RunStats

end StubDecl
