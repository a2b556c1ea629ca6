import Mathlib.Data.List.Basic
import StubDecl.Proofs.Declaration

/-!
# The order of declarations

Reordering leaves the first stub where it is, whatever it is, and parts the others into those that are no
variables and the variables. `Stub.IsReordering` says so of two lists without saying how the second one is
found; there is no more than one such list (`Stub.IsReordering.eq_reorder`), so that reordering twice is
reordering once, and types can be filled in before or after it (`Stub.eq_reorder_iff`).
-/

namespace StubDecl.Stub

/-- `ts` has the stubs of `ss` and starts with the same one. Behind it come the others that are no
variables, then the variables, each group in the order of `ss`. -/
structure IsReordering (ss ts : List Stub) : Prop where
  perm : ts.Perm ss
  head : ts.head? = ss.head?
  parted : ∃ ns vs, ts.tail = ns ++ vs ∧ (∀ s ∈ ns, s.kind ≠ .variableDecl) ∧
    (∀ s ∈ vs, s.kind = .variableDecl) ∧ ns.Sublist ss.tail ∧ vs.Sublist ss.tail

theorem isVariable_iff {s : Stub} : s.kind.isVariable = true ↔ s.kind = .variableDecl := by
  rw [StubKind.isVariable, beq_iff_eq]

/-- A group in its original order, with all others in a second list, is what a filter keeps. -/
theorem eq_filter_of_sublist {p : Stub → Bool} {ns vs ss : List Stub} (hperm : (ns ++ vs).Perm ss)
    (hns : ∀ s ∈ ns, p s = true) (hvs : ∀ s ∈ vs, ¬p s = true) (hsub : ns.Sublist ss) :
    ns = ss.filter p := by
  have hkept : ns.filter p = ns := List.filter_eq_self.mpr hns
  have hsub' : ns.Sublist (ss.filter p) := by
    rw [← hkept]
    exact hsub.filter p
  have hlength : ns.length = (ss.filter p).length := by
    rw [← (hperm.filter p).length_eq, List.filter_append, hkept, List.filter_eq_nil_iff.mpr hvs,
      List.append_nil]
  exact hsub'.eq_of_length hlength

theorem isReordering_reorder (ss : List Stub) : IsReordering ss (reorder ss) := by
  cases ss with
  | nil => exact ⟨.refl _, rfl, [], [], rfl, nofun, nofun, .slnil, .slnil⟩
  | cons s ss =>
    have hperm := reorder_perm (s :: ss)
    rw [reorder_cons] at hperm ⊢
    refine ⟨hperm, rfl, _, _, rfl, ?_, ?_, List.filter_sublist, List.filter_sublist⟩
    · intro t ht hvar
      have hkeep := (List.mem_filter.mp ht).2
      rw [isVariable_iff.mpr hvar] at hkeep
      cases hkeep
    · intro t ht
      exact isVariable_iff.mp (List.mem_filter.mp ht).2

/-- The order of a file is settled by which stub is the first one and which ones are variables. -/
theorem IsReordering.eq_reorder {ss ts : List Stub} (h : IsReordering ss ts) : ts = reorder ss := by
  obtain ⟨hperm, hhead, ns, vs, htail, hns, hvs, hns', hvs'⟩ := h
  cases ss with
  | nil => exact hperm.eq_nil
  | cons s ss =>
    obtain ⟨us, rfl⟩ := List.head?_eq_some_iff.mp hhead
    obtain rfl : us = ns ++ vs := htail
    have hothers : (ns ++ vs).Perm ss := hperm.cons_inv
    have hn : ∀ t ∈ ns, (!t.kind.isVariable) = true := by
      intro t ht
      rw [Bool.not_eq_true', ← Bool.not_eq_true, isVariable_iff]
      exact hns t ht
    have hv : ∀ t ∈ vs, t.kind.isVariable = true := fun t ht => isVariable_iff.mpr (hvs t ht)
    have hn' : ns = ss.filter (!·.kind.isVariable) :=
      eq_filter_of_sublist hothers hn (fun t ht => by simp [hv t ht]) hns'
    have hv' : vs = ss.filter (·.kind.isVariable) :=
      eq_filter_of_sublist (List.perm_append_comm.trans hothers) hv (fun t ht => by simpa using hn t ht) hvs'
    rw [reorder_cons, ← hn', ← hv']

/-- What has been reordered is in order. -/
theorem IsReordering.self {ss ts : List Stub} (h : IsReordering ss ts) : IsReordering ts ts := by
  obtain ⟨-, -, ns, vs, htail, hns, hvs, -, -⟩ := h
  refine ⟨.refl _, rfl, ns, vs, htail, hns, hvs, ?_, ?_⟩
  · rw [htail]
    exact List.sublist_append_left ns vs
  · rw [htail]
    exact List.sublist_append_right ns vs

/-- **Reordering moves the variables behind all stubs but the first and changes no order besides.** Nothing
else does, doing it again changes nothing, and it does not matter whether the types are filled in before or
after it. -/
theorem eq_reorder_iff (m : TypeTable) (ss : List Stub) :
    (∀ ts, ts = reorder ss ↔ IsReordering ss ts) ∧ reorder (reorder ss) = reorder ss ∧
      (reorder ss).map (annotate m) = reorder (ss.map (annotate m)) := by
  have hself := isReordering_reorder ss
  refine ⟨fun ts => ⟨fun hts => hts ▸ hself, IsReordering.eq_reorder⟩, ?_, map_annotate_reorder m ss⟩
  exact hself.self.eq_reorder.symm

end StubDecl.Stub
