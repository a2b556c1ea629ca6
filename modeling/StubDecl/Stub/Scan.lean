import StubDecl.Failure
import StubDecl.Line.Shape
import StubDecl.Stub.Basic

/-!
# Scanning a stub file

A stub file is read line by line. `Scanner.step` takes one line; it is total, and a line that fits
nowhere is a defect. `scan` runs all lines and checks what is left open at the end.

The stubs read so far are kept with the newest first. The newest one is the one that lines of an
open block belong to, and the one that a declaration completes while its kind is unknown.
-/

namespace StubDecl

/-- What is open: nothing, a doc block, or a literal, the latter two since a given line. -/
inductive Scanner.Mode where
  | idle
  | inDoc (opened : Int)
  | inCode (opened : Int)
  deriving DecidableEq, Repr

/-- The state of a scan: what is open, and the stubs so far, the newest first. -/
structure Scanner where
  mode : Scanner.Mode := .idle
  stubs : List Stub := []
  deriving DecidableEq, Repr

namespace Scanner

/-- A defect at a place of `file`. -/
def defect (kind : DefectKind) (file : Text) (line : Int) (text : Text) : Failure :=
  Cause.defect ⟨kind, file, line, text⟩

/-- The scanner with the newest stub changed. -/
def mapCurrent (f : Stub → Stub) (s : Scanner) : Scanner :=
  match s.stubs with
  | [] => s
  | st :: sts => { s with stubs := f st :: sts }

/-- The scanner with a new stub that starts at line `n`. -/
def openStub (n : Int) (s : Scanner) : Scanner := { s with stubs := { line := n } :: s.stubs }

/-- The scanner whose newest stub takes a declaration of line `n`: the documented stub that waits
for one, or a new stub. -/
def forDeclaration (n : Int) (s : Scanner) : Scanner :=
  match s.stubs with
  | [] => s.openStub n
  | st :: _ => if st.kind = .unknown then s else s.openStub n

/-- A declaration line completes the stub it belongs to. -/
def declare (n : Int) (line : Text) (f : Stub → Stub) (s : Scanner) : Scanner :=
  (s.forDeclaration n).mapCurrent fun st => (f st).withCode line

/-- The first stub of the file with its parent set, if it is a class. -/
def extend? (parent : Text) (s : Scanner) : Option Scanner :=
  match s.stubs.reverse with
  | [] => none
  | st :: sts =>
    if st.kind.isClass then
      some { s with stubs := ({ st with parent := parent } :: sts).reverse }
    else none

/-- The hint for a line that fits nowhere. -/
def unrecognizedHint (shape : LineShape) : Text :=
  "line looks like " ++ Text.ofString shape.name ++
    "; only doc blocks, class, method, extension and variable statements are recognised"

/-- One line in the idle mode. -/
def stepIdle (file : Text) (s : Scanner) (n : Int) (line : Text) : Outcome Scanner :=
  match Line.classify line with
  | .docStart =>
    let s' := (s.openStub n).mapCurrent (Stub.withDoc line)
    .ok (if Line.isOneLineDoc line then s' else { s' with mode := .inDoc n })
  | .codeStart =>
    .ok { s.declare n line fun st => { st with kind := .variableDecl } with mode := .inCode n }
  | .extension p =>
    match s.extend? p with
    | some s' => .ok s'
    | none => .error (defect .extendsBeforeClass file n line)
  | .classLine c =>
    .ok (s.declare n line fun st => { st with kind := .classDecl, className := c })
  | .methodLine m ps =>
    .ok (s.declare n line fun st =>
      { st with kind := .methodDecl, methodName := m, params := Parameter.split ps })
  | .variableLine =>
    .ok (s.declare n line fun st => { st with kind := .variableDecl })
  | shape => .error ((defect .unrecognizedLine file n line).withHint (unrecognizedHint shape))

/-- One line: `n` is its number, `line` its text without trailing white space. -/
def step (file : Text) (s : Scanner) (n : Int) (line : Text) : Outcome Scanner :=
  if Line.isTrash line then .ok s
  else match s.mode with
  | .idle => stepIdle file s n line
  | .inDoc _ =>
    let s' := s.mapCurrent (Stub.withDoc line)
    .ok (if Line.isDocEnd line then { s' with mode := .idle } else s')
  | .inCode _ =>
    let s' := s.mapCurrent (Stub.withCode line)
    .ok (if Line.isCodeEnd line then { s' with mode := .idle } else s')

/-- All lines, the first of which has number `n`. -/
def steps (file : Text) (s : Scanner) (n : Int) : List Text → Outcome Scanner
  | [] => .ok s
  | line :: lines =>
    match step file s n line with
    | .ok s' => steps file s' (n + 1) lines
    | .error f => .error f

/-- A block that is still open at the end of the file. -/
def unterminated (file : Text) (opened : Int) (block : Text) : Failure :=
  (defect .unterminatedBlock file opened []).withDetail (block ++ " opened here is never closed")

/-- The stubs in source order, if the file may end here. -/
def finish (file : Text) (s : Scanner) : Outcome (List Stub) :=
  match s.mode with
  | .inDoc n => .error (unterminated file n "doc block")
  | .inCode n => .error (unterminated file n "code block")
  | .idle =>
    match s.stubs.reverse with
    | [] => .error (defect .missingClass file 0 [])
    | first :: rest =>
      match (first :: rest).find? (·.kind = .unknown) with
      | some st => .error (defect .orphanDoc file st.line (st.docLines.headD []))
      | none =>
        if first.kind.isClass then .ok (first :: rest)
        else .error (defect .missingClass file first.line (first.codeLines.headD []))

end Scanner

/-- The lines of a content: cut at newlines, without white space at their ends. -/
def sourceLines (content : Text) : List Text := (content.splitOn 0x0a).map Text.trimEnd

/-- The stubs of a file in source order. The first one is its class. -/
def scan (file content : Text) : Outcome (List Stub) :=
  match Scanner.steps file {} 1 (sourceLines content) with
  | .ok s => s.finish file
  | .error f => .error f

/-- The stubs of a file with their types, the variables last. -/
def assemble (m : TypeTable) (file content : Text) : Outcome (List Stub) :=
  (scan file content).map fun stubs => (Stub.reorder stubs).map (Stub.annotate m)

end StubDecl
