import Mathlib.Data.List.Basic
import StubDecl.Proofs.Text.Blank
import StubDecl.Stub.Scan

/-!
# Lines, words and prefixes

What is joined with a separator is cut at it again (`Text.splitOn_joinWith`), and a content made of trimmed
lines has these lines (`sourceLines_joinWith`).
-/

namespace StubDecl

namespace Text

/-! ## Cutting what was joined -/

theorem splitOn_of_notMem {sep : UInt8} {t : Text} (h : sep ∉ t) : splitOn sep t = [t] := by
  induction t with
  | nil => rfl
  | cons b t ih =>
    obtain ⟨hb, ht⟩ := (by simpa using h : sep ≠ b ∧ sep ∉ t)
    rw [splitOn, if_neg hb.symm, ih ht]

/-- Cutting at every separator is cutting on both sides of one of them. -/
theorem splitOn_append_cons (sep : UInt8) (t u : Text) :
    splitOn sep (t ++ sep :: u) = splitOn sep t ++ splitOn sep u := by
  induction t with
  | nil => simp [splitOn]
  | cons b t ih =>
    rw [List.cons_append, splitOn, splitOn]
    split
    · rw [ih, List.cons_append]
    · rw [ih]
      cases hs : splitOn sep t with
      | nil => exact absurd hs (splitOn_ne_nil sep t)
      | cons p ps => rfl

theorem splitOn_append_sep {sep : UInt8} {t : Text} (h : sep ∉ t) (u : Text) :
    splitOn sep (t ++ sep :: u) = t :: splitOn sep u := by
  rw [splitOn_append_cons, splitOn_of_notMem h, List.singleton_append]

/-- Pieces without the separator come back from what they are joined to. -/
theorem splitOn_joinWith {sep : UInt8} {ts : List Text} (hne : ts ≠ []) (h : ∀ t ∈ ts, sep ∉ t) :
    splitOn sep (joinWith [sep] ts) = ts := by
  induction ts with
  | nil => exact absurd rfl hne
  | cons t ts ih =>
    obtain ⟨ht, hts⟩ := List.forall_mem_cons.mp h
    cases ts with
    | nil => exact splitOn_of_notMem ht
    | cons u ts =>
      rw [joinWith_cons _ _ (List.cons_ne_nil u ts), List.append_assoc, List.singleton_append,
        splitOn_append_sep ht, ih (List.cons_ne_nil u ts) hts]

/-- The pieces between separators have none in them. -/
theorem notMem_of_mem_splitOn {sep : UInt8} {t u : Text} (h : u ∈ splitOn sep t) : sep ∉ u := by
  induction t generalizing u with
  | nil =>
    obtain rfl : u = [] := by simpa [splitOn] using h
    exact List.not_mem_nil
  | cons b t ih =>
    rw [splitOn] at h
    split at h
    · obtain rfl | h := List.mem_cons.mp h
      · exact List.not_mem_nil
      · exact ih h
    · next hb =>
      split at h
      · next hs => exact absurd hs (splitOn_ne_nil sep t)
      · next v vs hs =>
        obtain rfl | h := List.mem_cons.mp h
        · have hv : sep ∉ v := ih (hs ▸ List.mem_cons_self)
          simpa [Ne.symm hb] using hv
        · exact ih (hs ▸ List.mem_cons_of_mem _ h)

theorem joinWith_concat (sep : Text) {ts : List Text} (h : ts ≠ []) (t : Text) :
    joinWith sep (ts ++ [t]) = joinWith sep ts ++ sep ++ t := by
  induction ts with
  | nil => exact absurd rfl h
  | cons u ts ih =>
    cases ts with
    | nil => rfl
    | cons v ts =>
      rw [List.cons_append, joinWith_cons _ _ (by simp), ih (List.cons_ne_nil v ts),
        joinWith_cons _ _ (List.cons_ne_nil v ts)]
      simp only [List.append_assoc]

/-! ## Parts of known texts -/

/-- The longest start within a class of bytes, where another byte follows. -/
theorem takeWhile_append_stop {p : UInt8 → Bool} {w r : Text} (hw : ∀ b ∈ w, p b = true)
    (hr : ∀ b ∈ r.head?, p b = false) : (w ++ r).takeWhile p = w := by
  rw [List.takeWhile_append_of_pos hw]
  cases r with
  | nil => rw [List.takeWhile_nil, List.append_nil]
  | cons b r => rw [List.takeWhile_cons_of_neg (by simp [hr b rfl]), List.append_nil]

theorem dropWhile_append_stop {p : UInt8 → Bool} {w r : Text} (hw : ∀ b ∈ w, p b = true)
    (hr : ∀ b ∈ r.head?, p b = false) : (w ++ r).dropWhile p = r := by
  rw [List.dropWhile_append_of_pos hw]
  cases r with
  | nil => rw [List.dropWhile_nil]
  | cons b r => rw [List.dropWhile_cons_of_neg (by simp [hr b rfl])]

/-- What is left behind the longest start within a class of bytes starts with another byte. -/
theorem head?_dropWhile_stop (p : UInt8 → Bool) (t : Text) : ∀ b ∈ (t.dropWhile p).head?, p b = false := by
  intro b hb
  have hnot := List.head?_dropWhile_not p t
  rw [hb] at hnot
  exact hnot

theorem startsWith_eq_false {b c : UInt8} (h : b ≠ c) (t pre : Text) :
    startsWith (b :: t) (c :: pre) = false := by
  have hbeq : (c == b) = false := beq_false_of_ne h.symm
  simp only [startsWith, List.isPrefixOf, hbeq, Bool.false_and]

/-- What a text ends with is decided by its last bytes. -/
theorem endsWith_append {u suf : Text} (h : suf.length ≤ u.length) (t : Text) :
    endsWith (t ++ u) suf = endsWith u suf := by
  rw [endsWith, endsWith, Bool.eq_iff_iff, List.isSuffixOf_iff_suffix, List.isSuffixOf_iff_suffix]
  constructor
  · intro hsuf
    exact List.suffix_of_suffix_length_le hsuf (List.suffix_append t u) h
  · intro hsuf
    exact hsuf.trans (List.suffix_append t u)

theorem exists_of_startsWith {t pre : Text} (h : startsWith t pre = true) : ∃ r, t = pre ++ r := by
  obtain ⟨r, hr⟩ := List.isPrefixOf_iff_prefix.mp h
  exact ⟨r, hr.symm⟩

theorem notMem_joinWith {b : UInt8} {sep : Text} {ts : List Text} (hsep : b ∉ sep)
    (h : ∀ t ∈ ts, b ∉ t) : b ∉ joinWith sep ts := by
  induction ts with
  | nil => exact List.not_mem_nil
  | cons t ts ih =>
    obtain ⟨ht, hts⟩ := List.forall_mem_cons.mp h
    cases ts with
    | nil => exact ht
    | cons u ts =>
      rw [joinWith_cons _ _ (List.cons_ne_nil u ts), List.mem_append, List.mem_append]
      rintro ((hmem | hmem) | hmem)
      · exact ht hmem
      · exact hsep hmem
      · exact ih hts hmem

end Text

/-! ## The lines of a content -/

/-- A line as it stands in a file: on one line, and trimmed at its end. -/
def IsLine (l : Text) : Prop := 0x0a ∉ l ∧ l.trimEnd = l

instance (l : Text) : Decidable (IsLine l) := inferInstanceAs (Decidable (_ ∧ _))

theorem isLine_of_mem_sourceLines {content l : Text} (h : l ∈ sourceLines content) : IsLine l := by
  obtain ⟨t, ht, rfl⟩ := List.mem_map.mp h
  refine ⟨fun hmem => ?_, Text.trimEnd_trimEnd t⟩
  exact Text.notMem_of_mem_splitOn ht ((Text.trimEnd_isPrefix t).subset hmem)

/-- A line that ends with a visible byte. -/
theorem isLine_append {t u : Text} {b : UInt8} (ht : 0x0a ∉ t) (hu : 0x0a ∉ u)
    (hlast : u.getLast? = some b) (hb : Text.IsVisible b) : IsLine (t ++ u) := by
  obtain ⟨v, rfl⟩ := List.getLast?_eq_some_iff.mp hlast
  refine ⟨fun hmem => (List.mem_append.mp hmem).elim ht hu, ?_⟩
  rw [← List.append_assoc]
  exact Text.trimEnd_concat hb (t ++ v)

/-- Lines that are joined are the lines of the content. A newline behind the last one adds an empty
line. -/
theorem sourceLines_joinWith {ls : List Text} (hne : ls ≠ []) (h : ∀ l ∈ ls, IsLine l) :
    sourceLines (Text.joinWith "\n" ls) = ls := by
  have hnewline : ("\n" : Text) = [0x0a] := rfl
  rw [sourceLines, hnewline, Text.splitOn_joinWith hne fun l hl => (h l hl).1]
  conv_rhs => rw [← List.map_id ls]
  exact List.map_congr_left fun l hl => (h l hl).2

end StubDecl
