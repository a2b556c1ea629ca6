import StubDecl.Stub.Scan

/-!
# Scanning with references

A scanner in memory does not hold its stubs: it lists their addresses, and has a reference to the one it
works on, which may lead nowhere. `LinkedScanner` is such a scanner. It changes stubs through references,
and a reference that leads nowhere is a fault of its own (`LinkedScanner.Fault.dangling`).
`LinkedScanner.view` is the scanner with the stubs themselves.
-/

namespace StubDecl

/-- What is open: nothing, a doc block, or a literal. -/
inductive LinkedScanner.Phase where
  | idle
  | inDoc
  | inCode
  deriving DecidableEq, Repr

/-- The state of a scan in memory: the stubs by their addresses, the addresses in source order, the reference
to the stub that was opened last, and the line where a block was opened last. -/
structure LinkedScanner where
  phase : LinkedScanner.Phase := .idle
  cells : List Stub := []
  order : List Nat := []
  current : Option Nat := none
  openLine : Int := 0
  deriving DecidableEq, Repr

namespace LinkedScanner

/-- What stops a linked scanner: a reference that leads nowhere, or a defect of the file. -/
inductive Fault where
  | dangling
  | defect (f : Failure)

/-! ## Memory -/

/-- The stub behind a reference. -/
def deref (ref : Option Nat) (s : LinkedScanner) : Except Fault Stub :=
  match ref.bind fun a => s.cells[a]? with
  | some st => .ok st
  | none => .error .dangling

/-- Changes the stub behind a reference. -/
def update (ref : Option Nat) (f : Stub → Stub) (s : LinkedScanner) : Except Fault LinkedScanner :=
  match ref with
  | some a =>
    if a < s.cells.length then .ok { s with cells := s.cells.modify a f } else .error .dangling
  | none => .error .dangling

/-- A new stub that starts at line `n`, with its address. -/
def openStub (n : Int) (s : LinkedScanner) : LinkedScanner × Nat :=
  let a := s.cells.length
  ({ s with cells := s.cells ++ [{ line := n }], order := s.order ++ [a], current := some a }, a)

/-- The address of the stub that a declaration of line `n` belongs to: the documented stub that waits for one,
or a new stub. -/
def forDeclaration (n : Int) (s : LinkedScanner) : Except Fault (LinkedScanner × Nat) :=
  match s.current with
  | none => .ok (s.openStub n)
  | some a => do
    let st ← s.deref (some a)
    return if st.kind = .unknown then (s, a) else s.openStub n

/-- A block is opened in line `n`. -/
def enter (phase : Phase) (n : Int) (s : LinkedScanner) : LinkedScanner :=
  { s with phase := phase, openLine := n }

/-! ## Lines -/

/-- A declaration line completes the stub it belongs to. -/
def declare (n : Int) (line : Text) (f : Stub → Stub) (s : LinkedScanner) :
    Except Fault LinkedScanner := do
  let (s, a) ← s.forDeclaration n
  s.update (some a) fun st => (f st).withCode line

/-- The first stub of the file gets a parent, if it is a class. -/
def extend (file : Text) (n : Int) (line parent : Text) (s : LinkedScanner) :
    Except Fault LinkedScanner :=
  match s.order with
  | [] => .error (.defect (Scanner.defect .extendsBeforeClass file n line))
  | a :: _ => do
    let first ← s.deref (some a)
    if first.kind.isClass then s.update (some a) fun st => { st with parent := parent }
    else .error (.defect (Scanner.defect .extendsBeforeClass file n line))

/-- One line in the idle phase. -/
def stepIdle (file : Text) (s : LinkedScanner) (n : Int) (line : Text) : Except Fault LinkedScanner :=
  match Line.classify line with
  | .docStart => do
    let (s, a) := s.openStub n
    let s ← s.update (some a) (Stub.withDoc line)
    return if Line.isOneLineDoc line then s else s.enter .inDoc n
  | .codeStart => do
    let s ← s.declare n line fun st => { st with kind := .variableDecl }
    return s.enter .inCode n
  | .extension p => s.extend file n line p
  | .classLine c => s.declare n line fun st => { st with kind := .classDecl, className := c }
  | .methodLine m ps => s.declare n line fun st =>
      { st with kind := .methodDecl, methodName := m, params := Parameter.split ps }
  | .variableLine => s.declare n line fun st => { st with kind := .variableDecl }
  | shape =>
    .error (.defect ((Scanner.defect .unrecognizedLine file n line).withHint
      (Scanner.unrecognizedHint shape)))

/-- One line: `n` is its number, `line` its text without trailing white space. -/
def step (file : Text) (s : LinkedScanner) (n : Int) (line : Text) : Except Fault LinkedScanner :=
  if Line.isTrash line then .ok s
  else match s.phase with
  | .idle => stepIdle file s n line
  | .inDoc => do
    let s ← s.update s.current (Stub.withDoc line)
    return if Line.isDocEnd line then { s with phase := .idle } else s
  | .inCode => do
    let s ← s.update s.current (Stub.withCode line)
    return if Line.isCodeEnd line then { s with phase := .idle } else s

/-- All lines, the first of which has number `n`. -/
def steps (file : Text) (s : LinkedScanner) (n : Int) : List Text → Except Fault LinkedScanner
  | [] => .ok s
  | line :: lines => do
    let s ← step file s n line
    steps file s (n + 1) lines

/-! ## Without references -/

/-- What is open, with the line where a block was opened last. -/
def Phase.mode (openLine : Int) : Phase → Scanner.Mode
  | .idle => .idle
  | .inDoc => .inDoc openLine
  | .inCode => .inCode openLine

/-- The scanner with the stubs themselves, the newest first. -/
def view (s : LinkedScanner) : Scanner :=
  ⟨s.phase.mode s.openLine, (s.order.filterMap fun a => s.cells[a]?).reverse⟩

end LinkedScanner

end StubDecl
