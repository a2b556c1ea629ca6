import Mathlib.Data.List.Basic
import StubDecl.Proofs.Text.Lines

/-!
# Reading parameter lists

Parameters that are joined with a comma and a blank are read up to the parenthesis behind them
(`Parameter.list_joinWith`), and are the parameters of what was read (`Parameter.split_joinWith`). These are
the lists in normal form: any other list is brought into this form by splitting it and joining what is found
(`Parameter.split_joinWith_eq_self_iff`).
-/

namespace StubDecl.Parameter

/-- A parameter takes the reading inside, wherever it stood. -/
theorem listFrom_word (p : Progress) {w : Text} (hne : w ≠ []) (hw : ∀ b ∈ w, isByte b = true)
    (r : Text) : listFrom p (w ++ r) = w ++ listFrom .inside r := by
  induction w generalizing p with
  | nil => exact absurd rfl hne
  | cons b w ih =>
    obtain ⟨hb, hw⟩ := List.forall_mem_cons.mp hw
    have hnext : p.next? b = some .inside := by simp only [Progress.next?, hb, if_true]
    rw [List.cons_append, listFrom, hnext, List.cons_append]
    cases w with
    | nil => rfl
    | cons c w => exact congrArg _ (ih .inside (List.cons_ne_nil c w) hw)

theorem listFrom_parenthesis (p : Progress) (r : Text) : listFrom p (0x29 :: r) = [] := by
  cases p <;> rfl

/-- The parameters of a method are read up to the closing parenthesis. -/
theorem list_joinWith {ps : List Text} (h : ∀ p ∈ ps, p ≠ [] ∧ ∀ b ∈ p, isByte b = true) (r : Text) :
    list (Text.joinWith ", " ps ++ 0x29 :: r) = Text.joinWith ", " ps := by
  rw [list]
  induction ps with
  | nil => exact listFrom_parenthesis _ r
  | cons p ps ih =>
    obtain ⟨⟨hne, hp⟩, hps⟩ := List.forall_mem_cons.mp h
    cases ps with
    | nil =>
      rw [Text.joinWith, listFrom_word _ hne hp, listFrom_parenthesis, List.append_nil]
    | cons q ps =>
      have hcomma : ∀ t, listFrom .inside ((", " : Text) ++ t) = (", " : Text) ++ listFrom .between t :=
        fun _ => rfl
      rw [Text.joinWith_cons _ _ (List.cons_ne_nil q ps), List.append_assoc, List.append_assoc,
        listFrom_word _ hne hp, hcomma, ih hps, List.append_assoc]

/-! ## Cutting a list -/

/-- A comma between two lists is where they are cut. -/
theorem split_append_comma (t u : Text) : split (t ++ 0x2c :: u) = split t ++ split u := by
  rw [split, Text.splitOn_append_cons, List.map_append, List.filter_append]
  rfl

/-- A blank in front of a list belongs to its first parameter, which is trimmed. -/
theorem split_blank_cons (t : Text) : split (0x20 :: t) = split t := by
  have hcut : Text.splitOn 0x2c (0x20 :: t) = (Text.splitOn 0x2c t).modifyHead (0x20 :: ·) := by
    rw [Text.splitOn, if_neg (by decide)]
    cases hs : Text.splitOn 0x2c t with
    | nil => exact absurd hs (Text.splitOn_ne_nil _ _)
    | cons u us => rfl
  rw [split, split, hcut]
  cases Text.splitOn 0x2c t with
  | nil => rfl
  | cons u us => rw [List.modifyHead_cons, List.map_cons, Text.trim_blank_cons, ← List.map_cons]

/-- A trimmed parameter without commas is a list of its own. -/
theorem split_eq_singleton {p : Text} (hne : p ≠ []) (hcomma : 0x2c ∉ p) (htrim : p.trim = p) :
    split p = [p] := by
  rw [split, Text.splitOn_of_notMem hcomma, List.map_singleton, htrim,
    List.filter_cons_of_pos (by simpa using hne), List.filter_nil]

/-- Trimmed parameters without commas are read back from their list. -/
theorem split_joinWith {ps : List Text} (h : ∀ p ∈ ps, p ≠ [] ∧ 0x2c ∉ p ∧ p.trim = p) :
    split (Text.joinWith ", " ps) = ps := by
  induction ps with
  | nil => rfl
  | cons p ps ih =>
    obtain ⟨⟨hne, hcomma, htrim⟩, hps⟩ := List.forall_mem_cons.mp h
    have hone := split_eq_singleton hne hcomma htrim
    cases ps with
    | nil => exact hone
    | cons q ps =>
      have hcut : Text.joinWith ", " (p :: q :: ps) =
          p ++ 0x2c :: (0x20 :: Text.joinWith ", " (q :: ps)) := by
        rw [Text.joinWith_cons _ _ (List.cons_ne_nil q ps), List.append_assoc]
        rfl
      rw [hcut, split_append_comma, split_blank_cons, hone, ih hps, List.singleton_append]

/-- The parameters of a list are trimmed, not empty, and have no commas in them. -/
theorem of_mem_split {raw p : Text} (h : p ∈ split raw) : p ≠ [] ∧ p.trim = p ∧ 0x2c ∉ p := by
  obtain ⟨hmem, hne⟩ := List.mem_filter.mp h
  obtain ⟨t, ht, rfl⟩ := List.mem_map.mp hmem
  exact ⟨by simpa using hne, Text.trim_trim t,
    fun hcomma => Text.notMem_of_mem_splitOn ht (Text.mem_of_mem_trim hcomma)⟩

/-! ## Lists in normal form -/

/-- What stands between two commas of a list, without the white space around it. -/
structure IsEntry (p : Text) : Prop where
  ne_nil : p ≠ []
  notMem : 0x2c ∉ p
  isTrimmed : p.IsTrimmed

theorem isEntry_iff {p : Text} : IsEntry p ↔ p ≠ [] ∧ 0x2c ∉ p ∧ p.trim = p := by
  rw [Text.trim_eq_self_iff]
  exact ⟨fun ⟨hne, hcomma, htrim⟩ => ⟨hne, hcomma, htrim⟩,
    fun ⟨hne, hcomma, htrim⟩ => ⟨hne, hcomma, htrim⟩⟩

theorem isEntry_of_mem_split {raw p : Text} (h : p ∈ split raw) : IsEntry p := by
  obtain ⟨hne, htrim, hcomma⟩ := of_mem_split h
  exact isEntry_iff.mpr ⟨hne, hcomma, htrim⟩

/-- **Splitting brings a parameter list into normal form.** What it gives are entries, whatever the bytes of
the list are; written with a comma and a blank between them they are split in the same way again, and this
is so of exactly those texts that are entries. -/
theorem split_joinWith_eq_self_iff (raw : Text) :
    (∀ p ∈ split raw, IsEntry p) ∧ split (Text.joinWith ", " (split raw)) = split raw ∧
      ∀ ps, split (Text.joinWith ", " ps) = ps ↔ ∀ p ∈ ps, IsEntry p := by
  have hback : ∀ {ps : List Text}, (∀ p ∈ ps, IsEntry p) → split (Text.joinWith ", " ps) = ps :=
    fun h => split_joinWith fun p hp => isEntry_iff.mp (h p hp)
  have hentries : ∀ p ∈ split raw, IsEntry p := fun _ => isEntry_of_mem_split
  refine ⟨hentries, hback hentries, fun ps => ⟨fun h p hp => ?_, hback⟩⟩
  rw [← h] at hp
  exact isEntry_of_mem_split hp

end StubDecl.Parameter
