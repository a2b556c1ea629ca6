import StubDecl.TypeTable

/-!
# Stubs

A stub is one declaration of a stub file with its doc block. Its kind is unknown while only the doc
block has been read. `Stub.reorder` goes through the stubs of a file once and parts them into two groups,
so that the variables come behind everything else but the first stub (`Stub.reorder_cons`);
`Stub.annotate` fills in the types that the doc block gives.
-/

namespace StubDecl

/-- What a stub declares. -/
inductive StubKind where
  | unknown
  | classDecl
  | methodDecl
  | variableDecl
  deriving DecidableEq, Repr

namespace StubKind

/-- The name of a kind. -/
def name : StubKind → String
  | .unknown => "unknown"
  | .classDecl => "class"
  | .methodDecl => "method"
  | .variableDecl => "variable"

/-- The kind with a given code; codes without a kind of their own are unknown. -/
def ofCode (n : Int) : StubKind :=
  if n = 1 then .classDecl
  else if n = 2 then .methodDecl
  else if n = 3 then .variableDecl
  else .unknown

/-- Whether this is a class. -/
def isClass (k : StubKind) : Bool := k == .classDecl

/-- Whether this is a method. -/
def isMethod (k : StubKind) : Bool := k == .methodDecl

/-- Whether this is a variable. -/
def isVariable (k : StubKind) : Bool := k == .variableDecl

end StubKind

/-- One declaration and its doc block. `line` is where it starts, counted from 1. -/
structure Stub where
  line : Int
  kind : StubKind := .unknown
  docLines : List Text := []
  codeLines : List Text := []
  className : Text := []
  parent : Text := []
  methodName : Text := []
  params : List Text := []
  paramTypes : TextMap := []
  returnType : Text := []
  deriving DecidableEq, Repr

namespace Stub

/-- The stub with one more line in its doc block. -/
def withDoc (line : Text) (st : Stub) : Stub := { st with docLines := st.docLines ++ [line] }

/-- The stub with one more line of code. -/
def withCode (line : Text) (st : Stub) : Stub := { st with codeLines := st.codeLines ++ [line] }

@[simp] theorem withDoc_kind (line : Text) (st : Stub) : (st.withDoc line).kind = st.kind := rfl

@[simp] theorem withDoc_line (line : Text) (st : Stub) : (st.withDoc line).line = st.line := rfl

@[simp] theorem withDoc_parent (line : Text) (st : Stub) : (st.withDoc line).parent = st.parent := rfl

@[simp] theorem withDoc_docLines (line : Text) (st : Stub) :
    (st.withDoc line).docLines = st.docLines ++ [line] := rfl

@[simp] theorem withDoc_codeLines (line : Text) (st : Stub) :
    (st.withDoc line).codeLines = st.codeLines := rfl

@[simp] theorem withCode_kind (line : Text) (st : Stub) : (st.withCode line).kind = st.kind := rfl

@[simp] theorem withCode_line (line : Text) (st : Stub) : (st.withCode line).line = st.line := rfl

@[simp] theorem withCode_parent (line : Text) (st : Stub) :
    (st.withCode line).parent = st.parent := rfl

@[simp] theorem withCode_docLines (line : Text) (st : Stub) :
    (st.withCode line).docLines = st.docLines := rfl

@[simp] theorem withCode_codeLines (line : Text) (st : Stub) :
    (st.withCode line).codeLines = st.codeLines ++ [line] := rfl

/-! ## Reordering -/

/-- One stub more behind its group: the variables are the second one. -/
def place (groups : List Stub × List Stub) (s : Stub) : List Stub × List Stub :=
  if s.kind.isVariable then (groups.1, groups.2 ++ [s]) else (groups.1 ++ [s], groups.2)

/-- The first stub, then all other stubs that are no variables, then the variables. -/
def reorder : List Stub → List Stub
  | [] => []
  | [s] => [s]
  | s :: ss =>
    let (ordered, vars) := ss.foldl place ([s], [])
    ordered ++ vars

/-- A stub comes behind one of the two groups. -/
theorem place_eq (groups : List Stub × List Stub) (s : Stub) :
    place groups s =
      (groups.1 ++ [s].filter (!·.kind.isVariable), groups.2 ++ [s].filter (·.kind.isVariable)) := by
  rw [place]
  cases h : s.kind.isVariable <;> simp [h]

/-- Stubs come behind the two groups in their own order. -/
theorem foldl_place (groups : List Stub × List Stub) (ss : List Stub) :
    ss.foldl place groups =
      (groups.1 ++ ss.filter (!·.kind.isVariable), groups.2 ++ ss.filter (·.kind.isVariable)) := by
  induction ss generalizing groups with
  | nil => simp
  | cons s ss ih =>
    rw [List.foldl_cons, ih, place_eq, List.append_assoc, List.append_assoc, ← List.filter_append,
      ← List.filter_append, List.singleton_append]

theorem reorder_cons (s : Stub) (ss : List Stub) :
    reorder (s :: ss) = s :: (ss.filter (!·.kind.isVariable) ++ ss.filter (·.kind.isVariable)) := by
  cases ss with
  | nil => rfl
  | cons t ts =>
    rw [reorder, foldl_place]
    · simp
    · nofun

/-- The stub with the types of its doc block. -/
def annotate (m : TypeTable) (s : Stub) : Stub :=
  let types := m.docTypes s.docLines
  { s with paramTypes := types.params, returnType := types.returns }

end Stub

end StubDecl
