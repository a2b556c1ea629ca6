import StubDecl.Proofs.Dialect.Conversion

/-!
# What a conversion depends on

Of a type table a conversion uses the declaration types of source types, and nothing else: tables that
agree on these convert every file to the same result (`convertFile_congr`). All of this shows in some
file, and so does all of a style, so that the condition is exact (`convertFile_eq_iff`).
-/

namespace StubDecl

open Dialect

/-! ## Tables that agree on source types -/

/-- The tables give every source type the same declaration type. -/
def TypeTable.Agree (m m' : TypeTable) : Prop :=
  ∀ ty : SourceType, m.normalize ty.text = m'.normalize ty.text

variable {m m' : TypeTable} {y y' : Style}

theorem TypeTable.Agree.addLine (h : m.Agree m') (types : DocTypes) (line : Text) :
    m.addLine types line = m'.addLine types line := by
  unfold TypeTable.addLine
  cases htag : DocTag.parse line with
  | none => rfl
  | some tag =>
    obtain ⟨hne, hbytes⟩ := DocTag.type_of_parse htag
    have htype : m.normalize tag.type = m'.normalize tag.type :=
      h ⟨tag.type, hne, List.all_eq_true.mpr hbytes⟩
    obtain ⟨kind, ty, n⟩ := tag
    cases kind with
    | param => exact congrArg (fun t => { types with params := types.params.insert n t }) htype
    | returns => exact congrArg (fun t => { types with returns := t }) htype

theorem TypeTable.Agree.annotate (h : m.Agree m') : Stub.annotate m = Stub.annotate m' := by
  have haddLine : m.addLine = m'.addLine := funext fun types => funext (h.addLine types)
  funext s
  simp only [Stub.annotate, TypeTable.docTypes, haddLine]

/-- Tables that agree on source types convert every file to the same result, be it a block or a
failure. -/
theorem convertFile_congr (h : m.Agree m') (y : Style) (path content : Text) :
    convertFile m y path content = convertFile m' y path content := by
  simp only [convertFile, assemble, h.annotate]

/-! ## Files that tell tables and styles apart -/

/-- A class with one method. -/
def classOf (g : Method) : ClassFile where
  name := ⟨"A", by decide⟩
  members := [.method g]

/-- The block of a class with one method is the declaration of the method between fixed texts. -/
theorem declaration_classOf (m : TypeTable) (y : Style) (g : Method) :
    (classOf g).declaration m y =
      ("declare class A \x7b\n" : Text) ++ (g.declaration m y ++ "\x7d\n\n") := by
  have hinside : (classOf g).members.flatMap (Member.inside m y) = g.declaration m y :=
    List.append_nil _
  rw [ClassFile.declaration, hinside]
  simp only [List.append_assoc]
  rfl

/-- Conversions that always give the same result declare every method in the same way. -/
theorem declaration_eq_of_convertFile
    (h : ∀ path content, convertFile m y path content = convertFile m' y' path content) (g : Method) :
    g.declaration m y = g.declaration m' y' := by
  have hblock : ∀ (m : TypeTable) (y : Style),
      (convertFile m y [] ((classOf g).write false)).map Prod.fst =
        .ok ((classOf g).declaration m y) := by
    intro m y
    rw [convertFile, ClassFile.assemble_write]
    simp only [bind, Except.bind, ClassFile.render_stubs]
    rfl
  have hsame : (classOf g).declaration m y = (classOf g).declaration m' y' := by
    have hfile := h [] ((classOf g).write false)
    exact Except.ok.inj ((hblock m y).symm.trans (hfile ▸ hblock m' y'))
  rw [declaration_classOf, declaration_classOf] at hsame
  exact List.append_cancel_right (List.append_cancel_left hsame)

/-- A method without parameters. -/
def bareMethod : Method where
  name := ⟨"f", by decide⟩

/-- A method with a rest parameter. -/
def restMethod : Method where
  name := ⟨"f", by decide⟩
  rest? := some ⟨"r", by decide⟩

/-- A method with a parameter of a given type. -/
def typedMethod (ty : SourceType) : Method where
  name := ⟨"f", by decide⟩
  params := [⟨⟨"x", by decide⟩, some ty⟩]
  nodup := List.nodup_singleton _
  perm := .refl _

theorem Style.eq_of_fields (hindent : y.indent = y'.indent) (hrest : y.restType = y'.restType) :
    y = y' := by
  cases y
  cases y'
  cases hindent
  cases hrest
  rfl

/-- The style shows in a method without parameters and in one with a rest parameter. -/
theorem style_eq_of_declaration (h : ∀ g : Method, g.declaration m y = g.declaration m' y') :
    y = y' := by
  have hindent : y.indent = y'.indent := by
    have hshape : ∀ (m : TypeTable) (y : Style),
        bareMethod.declaration m y = Text.blanks y.indent ++ "f(): void;\n\n" := by
      intro m y
      simp only [Method.declaration, List.append_assoc]
      rfl
    have hsame := h bareMethod
    rw [hshape, hshape] at hsame
    simpa [Text.blanks] using congrArg List.length (List.append_cancel_right hsame)
  have hrest : y.restType = y'.restType := by
    have hshape : ∀ (m : TypeTable) (y : Style), restMethod.declaration m y =
        (Text.blanks y.indent ++ ("f(...r: " : Text)) ++ (y.restType ++ "): void;\n\n") := by
      intro m y
      simp only [Method.declaration, List.append_assoc]
      rfl
    have hsame := h restMethod
    rw [hshape, hshape, hindent] at hsame
    exact List.append_cancel_right (List.append_cancel_left hsame)
  exact Style.eq_of_fields hindent hrest

/-- The type of a parameter shows in a method that documents it. -/
theorem agree_of_declaration (h : ∀ g : Method, g.declaration m y = g.declaration m' y) :
    m.Agree m' := by
  intro ty
  have hshape : ∀ m : TypeTable, (typedMethod ty).declaration m y =
      ((typedMethod ty).docLines.flatMap (indented (Text.blanks y.indent)) ++ Text.blanks y.indent ++
        ("f(x?: " : Text)) ++ (m.normalize ty.text ++ "): void;\n\n") := by
    intro m
    simp only [Method.declaration, List.append_assoc]
    rfl
  have hsame := h (typedMethod ty)
  rw [hshape, hshape] at hsame
  exact List.append_cancel_right (List.append_cancel_left hsame)

/-- **Conversions give the same results exactly if** they have the same style and their tables agree on
source types. -/
theorem convertFile_eq_iff :
    (∀ path content, convertFile m y path content = convertFile m' y' path content) ↔
      y = y' ∧ m.Agree m' := by
  constructor
  · intro h
    have hdecl := declaration_eq_of_convertFile h
    obtain rfl := style_eq_of_declaration hdecl
    exact ⟨rfl, agree_of_declaration hdecl⟩
  · rintro ⟨rfl, hagree⟩ path content
    exact convertFile_congr hagree y path content

end StubDecl
