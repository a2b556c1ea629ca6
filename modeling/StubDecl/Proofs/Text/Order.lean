import Mathlib.Data.List.Basic
import StubDecl.Text.Basic

/-!
# The bytewise order

`Text.le` is a total order, so that the texts alone decide how they are sorted, and not the order in
which they come (`Text.sort_eq_of_perm`).
-/

namespace StubDecl.Text

theorem le_total (s t : Text) : (le s t || le t s) = true := by
  fun_induction le s t with
  | case1 t => rfl
  | case2 a s => rfl
  | case3 a s t ih =>
    rw [le, if_pos rfl]
    exact ih
  | case4 a s b t hab =>
    have hne : a.toNat ≠ b.toNat := fun h => hab (UInt8.toNat_inj.mp h)
    rw [le, if_neg (Ne.symm hab)]
    simp only [Bool.or_eq_true, decide_eq_true_eq, UInt8.lt_iff_toNat_lt]
    omega

theorem le_antisymm {s t : Text} (h : le s t = true) (h' : le t s = true) : s = t := by
  fun_induction le s t with
  | case1 t =>
    cases t with
    | nil => rfl
    | cons b t => cases h'
  | case2 a s => cases h
  | case3 a s t ih =>
    rw [le, if_pos rfl] at h'
    rw [ih h h']
  | case4 a s b t hab =>
    rw [le, if_neg (Ne.symm hab)] at h'
    simp only [decide_eq_true_eq, UInt8.lt_iff_toNat_lt] at h h'
    omega

theorem le_trans {s t u : Text} (h : le s t = true) (h' : le t u = true) : le s u = true := by
  fun_induction le s t generalizing u with
  | case1 t => rfl
  | case2 a s => cases h
  | case3 a s t ih =>
    cases u with
    | nil => cases h'
    | cons c u =>
      rw [le] at h' ⊢
      split at h'
      · next hac => rw [if_pos hac, ih h h']
      · next hac => rw [if_neg hac, h']
  | case4 a s b t hab =>
    cases u with
    | nil => cases h'
    | cons c u =>
      have hlt : a.toNat < b.toNat := UInt8.lt_iff_toNat_lt.mp (of_decide_eq_true h)
      have hle : b.toNat ≤ c.toNat := by
        rw [le] at h'
        split at h'
        · next hbc => exact Nat.le_of_eq (congrArg UInt8.toNat hbc)
        · exact Nat.le_of_lt (UInt8.lt_iff_toNat_lt.mp (of_decide_eq_true h'))
      have hac : a ≠ c := by
        rintro rfl
        omega
      rw [le, if_neg hac, decide_eq_true_eq, UInt8.lt_iff_toNat_lt]
      omega

/-- Comes before in bytewise order, and is not the same. -/
def Precedes (s t : Text) : Prop := le s t = true ∧ s ≠ t

theorem Precedes.trans {s t u : Text} (h : s.Precedes t) (h' : t.Precedes u) : s.Precedes u := by
  refine ⟨le_trans h.1 h'.1, ?_⟩
  rintro rfl
  exact h.2 (le_antisymm h.1 h'.1)

instance : Std.Asymm Precedes :=
  ⟨fun _ _ h h' => h.2 (le_antisymm h.1 h'.1)⟩

theorem precedes_of_not_le {s t : Text} (h : le s t ≠ true) : t.Precedes s := by
  have htotal := le_total s t
  rw [Bool.or_eq_true] at htotal
  refine ⟨htotal.resolve_left h, ?_⟩
  rintro rfl
  exact h (or_self_iff.mp htotal)

theorem pairwise_sort (ts : List Text) : (sort ts).Pairwise fun s t => le s t = true :=
  @List.pairwise_mergeSort Text le (fun _ _ _ => le_trans) le_total ts

/-- The order in which texts come does not matter to how they are sorted. -/
theorem sort_eq_of_perm {ts us : List Text} (h : ts.Perm us) : sort ts = sort us := by
  have hperm : (sort ts).Perm (sort us) :=
    (List.mergeSort_perm ts le).trans (h.trans (List.mergeSort_perm us le).symm)
  exact hperm.eq_of_pairwise (fun _ _ _ _ => le_antisymm) (pairwise_sort ts) (pairwise_sort us)

theorem sort_of_pairwise {ts : List Text} (h : ts.Pairwise fun s t => le s t = true) : sort ts = ts :=
  List.mergeSort_of_pairwise h

end StubDecl.Text
