import StubDecl.Line.DocTag

/-!
# Type names

Source type tokens and the declaration types they stand for. A token that no table knows stands
for itself. `TypeTable.docTypes` reads the types off the lines of a doc block; of two tags for the
same parameter, and of two return tags, the later one counts.
-/

namespace StubDecl

/-- A finite map from texts to texts, as an association list: the first entry of a key counts. -/
abbrev TextMap := List (Text × Text)

namespace TextMap

/-- The value of a key. -/
def get? : TextMap → Text → Option Text
  | [], _ => none
  | (k', v) :: m, k => if k = k' then some v else get? m k

/-- The map with `k` sent to `v`; the entry keeps its place if the key had one. -/
def insert : TextMap → Text → Text → TextMap
  | [], k, v => [(k, v)]
  | (k', v') :: m, k, v => if k' = k then (k, v) :: m else (k', v') :: insert m k v

theorem get?_cons (p : Text × Text) (m : TextMap) (k : Text) :
    get? (p :: m) k = if k = p.1 then some p.2 else get? m k := rfl

@[simp]
theorem get?_insert (m : TextMap) (k v k' : Text) :
    (m.insert k v).get? k' = if k' = k then some v else m.get? k' := by
  induction m with
  | nil => simp [insert, get?_cons]
  | cons p m ih =>
    obtain ⟨a, b⟩ := p
    by_cases h : a = k
    · subst h
      simp only [insert, if_pos, get?_cons]
      split <;> rfl
    · simp only [insert, if_neg h, get?_cons, ih]
      by_cases h' : k' = a
      · subst h'
        simp [h]
      · simp [h']

end TextMap

/-- Type substitutions that are looked up before the built-in ones. -/
structure TypeTable where
  overrides : TextMap := []
  deriving DecidableEq, Repr

/-- The types that a doc block gives: by parameter name, and for the result. -/
structure DocTypes where
  params : TextMap
  returns : Text
  deriving DecidableEq, Repr

namespace TypeTable

/-- The type of a method without a return tag. -/
def void : Text := "void"

/-- The built-in substitutions. -/
def builtin : TextMap :=
  [("int", "number"), ("long", "number"), ("double", "number"), ("byte[]", "number[]"),
    ("Object[]", "Array<any>"), ("function", "Function")]

/-- The declaration type of a source token. -/
def normalize (m : TypeTable) (token : Text) : Text :=
  match m.overrides.get? token with
  | some t => t
  | none => (TextMap.get? builtin token).getD token

/-- The types after one more line of a doc block. -/
def addLine (m : TypeTable) (types : DocTypes) (line : Text) : DocTypes :=
  match DocTag.parse line with
  | some ⟨.returns, ty, _⟩ => { types with returns := m.normalize ty }
  | some ⟨.param, ty, n⟩ => { types with params := types.params.insert n (m.normalize ty) }
  | none => types

/-- The types that the lines of a doc block give. -/
def docTypes (m : TypeTable) (lines : List Text) : DocTypes :=
  lines.foldl m.addLine ⟨[], void⟩

end TypeTable

end StubDecl
