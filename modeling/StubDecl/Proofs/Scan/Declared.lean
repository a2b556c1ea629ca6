import StubDecl.Proofs.Line.Shape
import StubDecl.Proofs.Scan.Step

/-!
# What a scan promises of its stubs

A stub that has been declared has lines of code, one that declares a class has a word for its name, and a
parent is a word too (`Scanner.complete_of_scan`).
-/

namespace StubDecl

namespace Stub

/-- What is known of a stub once it is declared: it has code, a name if it is a class, and a parent that
is a word if it has one. -/
structure Complete (st : Stub) : Prop where
  code : st.kind ≠ .unknown → st.codeLines ≠ []
  named : st.kind = .classDecl → IsWord st.className
  parent : st.parent = [] ∨ IsWord st.parent

/-- A stub that only waits for its declaration. -/
theorem complete_of_unknown {st : Stub} (h : st.kind = .unknown) (hparent : st.parent = []) :
    st.Complete where
  code hk := absurd h hk
  named hk := by
    rw [h] at hk
    cases hk
  parent := .inl hparent

theorem Complete.withDoc {st : Stub} (h : st.Complete) (l : Text) : (st.withDoc l).Complete :=
  ⟨h.code, h.named, h.parent⟩

theorem Complete.withCode {st : Stub} (h : st.Complete) (l : Text) : (st.withCode l).Complete where
  code _ := by simp
  named := h.named
  parent := h.parent

/-- A declaring line leaves a complete stub. -/
theorem complete_declared {l : Text} {f : Stub → Stub}
    (hc : (Line.classify l).complete? = some f) {st : Stub} (hparent : st.parent = [] ∨ IsWord st.parent) :
    ((f st).withCode l).Complete where
  code _ := by simp
  named hk := by
    generalize hshape : Line.classify l = shape at hc
    cases LineShape.declares_of_complete? hc with
    | classLine => exact Line.isWord_of_class? (Line.class?_of_classify hshape)
    | codeStart | methodLine | variableLine => cases hk
  parent := by rwa [withCode_parent, (LineShape.complete?_frame hc st).2.2.1]

end Stub

namespace Scanner

/-- A step leaves all stubs complete. -/
theorem complete_step {n : Int} {l : Text} {s s' : Scanner} (h : Step n l s s')
    (hs : ∀ x ∈ s.stubs, x.Complete) : ∀ x ∈ s'.stubs, x.Complete := by
  cases h with
  | trash => exact hs
  | docLine | docEnd =>
    obtain ⟨hst, hsts⟩ := List.forall_mem_cons.mp hs
    exact List.forall_mem_cons.mpr ⟨hst.withDoc l, hsts⟩
  | codeLine | codeEnd =>
    obtain ⟨hst, hsts⟩ := List.forall_mem_cons.mp hs
    exact List.forall_mem_cons.mpr ⟨hst.withCode l, hsts⟩
  | docStart | oneLineDoc =>
    exact List.forall_mem_cons.mpr ⟨Stub.complete_of_unknown rfl rfl, hs⟩
  | extension hc =>
    obtain ⟨hsts, hfirst⟩ := List.forall_mem_append.mp hs
    obtain ⟨hcode, hnamed, -⟩ := List.forall_mem_singleton.mp hfirst
    have hparent := Line.isWord_of_extension? (Line.extension?_of_classify hc)
    exact List.forall_mem_append.mpr
      ⟨hsts, List.forall_mem_singleton.mpr ⟨hcode, hnamed, .inr hparent⟩⟩
  | complete hc =>
    obtain ⟨hst, hsts⟩ := List.forall_mem_cons.mp hs
    exact List.forall_mem_cons.mpr ⟨Stub.complete_declared hc hst.parent, hsts⟩
  | declare hc => exact List.forall_mem_cons.mpr ⟨Stub.complete_declared hc (.inl rfl), hs⟩

/-- **The stubs of a scan are complete**, and all of them are declared. -/
theorem complete_of_scan {file content : Text} {stubs : List Stub}
    (h : scan file content = .ok stubs) : ∀ st ∈ stubs, st.kind ≠ .unknown ∧ st.Complete := by
  obtain ⟨s, hs, hf⟩ := scan_eq_ok_iff.mp h
  have hall : ∀ x ∈ s.stubs, x.Complete :=
    steps_induction (P := fun _ s => ∀ x ∈ s.stubs, x.Complete) (List.forall_mem_nil _)
      (fun _ _ _ _ hs hstep => complete_step hstep hs) hs
  obtain ⟨-, rfl, hknown, -⟩ := finish_eq_ok_iff.mp hf
  exact fun st hst => ⟨hknown st hst, hall st (List.mem_reverse.mp hst)⟩

end Scanner

end StubDecl
