import Mathlib.Data.List.Basic
import Mathlib.Data.List.DropRight
import StubDecl.Proofs.Text.Utf8
import StubDecl.Text.Blank

/-!
# White space at the ends of a text

Trimming is trimming of pieces (`Text.units_trimStart`, `Text.units_trimEnd`), as what is left of a text is
cut into the pieces that it had before. So it is settled by one application (`Text.trim_trim`), and it
leaves a text alone exactly if no white space character, as it is written in UTF-8, starts or ends it
(`Text.trim_eq_self_iff`). A visible byte of ASCII stops it (`Text.trimEnd_append_cons`).
-/

namespace StubDecl.Text

/-! ## Pieces of a part -/

/-- The first pieces of a text are the pieces of its start. -/
theorem units_ofUnits_of_append {t : Text} {us vs : List Unit} (h : units t = us ++ vs) :
    units (ofUnits us) = us := by
  induction t using units_induction generalizing us with
  | nil =>
    obtain ⟨rfl, -⟩ := List.append_eq_nil_iff.mp h.symm
    rfl
  | char bs c t hc ih =>
    rw [units_append_of_encodes hc] at h
    cases us with
    | nil => rfl
    | cons u us =>
      obtain ⟨rfl, hrest⟩ := List.cons.inj h
      exact (units_append_of_encodes hc _).trans (congrArg _ (ih hrest))
  | stray b t hb ih =>
    rw [units_cons_of_none hb] at h
    cases us with
    | nil => rfl
    | cons u us =>
      obtain ⟨rfl, hrest⟩ := List.cons.inj h
      -- a byte that starts no character does not start one when less follows
      have hstray : charAt? b (ofUnits us) = none := by
        have ht : t = ofUnits us ++ ofUnits vs := by
          rw [← ofUnits_units t, hrest]
          exact List.flatMap_append
        by_contra hsome
        obtain ⟨⟨c, n⟩, hc⟩ := Option.ne_none_iff_exists'.mp hsome
        obtain ⟨-, happ⟩ := charAt?_append hc ((ofUnits us).drop n ++ ofUnits vs)
        rw [← List.append_assoc, List.take_append_drop, ← ht, hb] at happ
        cases happ
      exact (units_cons_of_none hstray).trans (congrArg _ (ih hrest))

/-- The last pieces of a text are the pieces of its end. -/
theorem units_ofUnits_of_append_right {t : Text} {us vs : List Unit} (h : units t = us ++ vs) :
    units (ofUnits vs) = vs := by
  induction t using units_induction generalizing us with
  | nil =>
    obtain ⟨-, rfl⟩ := List.append_eq_nil_iff.mp h.symm
    rfl
  | char bs c t hc ih =>
    cases us with
    | nil =>
      obtain rfl : units (bs ++ t) = vs := h
      rw [ofUnits_units]
    | cons u us =>
      rw [units_append_of_encodes hc] at h
      exact ih (List.cons.inj h).2
  | stray b t hb ih =>
    cases us with
    | nil =>
      obtain rfl : units (b :: t) = vs := h
      rw [ofUnits_units]
    | cons u us =>
      rw [units_cons_of_none hb] at h
      exact ih (List.cons.inj h).2

/-! ## Trimming -/

theorem units_trimEnd (t : Text) : units (trimEnd t) = (units t).rdropWhile Unit.isBlank := by
  obtain ⟨vs, hvs⟩ := List.rdropWhile_prefix Unit.isBlank (l := units t)
  exact units_ofUnits_of_append hvs.symm

/-- What has been trimmed stays as it is. -/
theorem trimEnd_trimEnd (t : Text) : trimEnd (trimEnd t) = trimEnd t := by
  have hunits : ofUnits ((units (trimEnd t)).rdropWhile Unit.isBlank) = trimEnd (trimEnd t) := rfl
  rw [← hunits, units_trimEnd, List.rdropWhile_idempotent]
  rfl

/-- White space is what nothing is left of. -/
theorem isBlank_of_trimEnd_eq_nil {w : Text} (h : trimEnd w = []) : ∀ u ∈ units w, u.isBlank = true := by
  rw [← List.rdropWhile_eq_nil_iff, ← units_trimEnd, h]
  rfl

/-- White space behind a text is trimmed with it. The text may end in the middle of a character: white
space does not complete it. -/
theorem trimEnd_append {w : Text} (hw : trimEnd w = []) (t : Text) : trimEnd (t ++ w) = trimEnd t := by
  have hblank := isBlank_of_trimEnd_eq_nil hw
  have hchars : ∀ u ∈ units w, ∃ c bs, u = .char c bs := by
    intro u hu
    cases u with
    | char c bs => exact ⟨c, bs, rfl⟩
    | stray b => cases hblank _ hu
  rw [trimEnd, units_append_of_chars hchars, List.reverse_append, List.dropWhile_append_of_pos]
  · rfl
  · exact fun u hu => hblank u (List.mem_reverse.mp hu)

theorem trimEnd_isPrefix (t : Text) : trimEnd t <+: t := by
  obtain ⟨vs, hvs⟩ := List.rdropWhile_prefix Unit.isBlank (l := units t)
  refine ⟨ofUnits vs, ?_⟩
  conv_rhs => rw [← ofUnits_units t, ← hvs]
  exact List.flatMap_append.symm

/-- The text without the white space at its start. -/
def trimStart (t : Text) : Text := ofUnits ((units t).dropWhile Unit.isBlank)

theorem units_trimStart (t : Text) : units (trimStart t) = (units t).dropWhile Unit.isBlank :=
  units_ofUnits_of_append_right List.takeWhile_append_dropWhile.symm

theorem trim_eq (t : Text) : trim t = trimEnd (trimStart t) := by
  rw [trimEnd, units_trimStart]
  rfl

theorem trimStart_isSuffix (t : Text) : trimStart t <:+ t := by
  refine ⟨ofUnits ((units t).takeWhile Unit.isBlank), ?_⟩
  conv_rhs => rw [← ofUnits_units t, ← List.takeWhile_append_dropWhile (p := Unit.isBlank) (l := units t)]
  exact List.flatMap_append.symm

theorem mem_of_mem_trim {b : UInt8} {t : Text} (h : b ∈ trim t) : b ∈ t := by
  rw [trim_eq] at h
  exact (trimStart_isSuffix t).subset ((trimEnd_isPrefix _).subset h)

/-- What has been trimmed on both sides stays as it is. -/
theorem trim_trim (t : Text) : trim (trim t) = trim t := by
  have hunits : units (trim t) = (units (trimStart t)).rdropWhile Unit.isBlank := by
    rw [trim_eq, units_trimEnd]
  -- no white space comes first, also behind the first trimming
  have hstart : (units (trim t)).dropWhile Unit.isBlank = units (trim t) := by
    rw [List.dropWhile_eq_self_iff]
    intro hlength
    have hshorter : units (trim t) <+: (units t).dropWhile Unit.isBlank := by
      rw [hunits, units_trimStart]
      exact List.rdropWhile_prefix _ _
    have hlength' := hlength.trans_le hshorter.length_le
    rw [hshorter.getElem hlength]
    simpa using List.dropWhile_get_zero_not Unit.isBlank (units t) hlength'
  rw [trim_eq (trim t), trimStart, hstart, ofUnits_units, trim_eq, trimEnd_trimEnd]

/-! ## Visible bytes -/

/-- A byte of ASCII that is not white space. -/
def IsVisible (b : UInt8) : Prop := b.toNat < 0x80 ∧ isBlank (Char.ofNat b.toNat) = false

instance (b : UInt8) : Decidable (IsVisible b) := inferInstanceAs (Decidable (_ ∧ _))

/-- Trimming goes no further than a visible byte. -/
theorem trimEnd_append_cons {b : UInt8} (hb : IsVisible b) (t u : Text) :
    trimEnd (t ++ b :: u) = t ++ b :: trimEnd u := by
  have hblank : ¬Unit.isBlank (.char (Char.ofNat b.toNat) [b]) = true := by
    rw [show Unit.isBlank (.char (Char.ofNat b.toNat) [b]) = false from hb.2]
    nofun
  have hdrop : ((units (t ++ b :: u)).reverse.dropWhile Unit.isBlank) =
      (units u).reverse.dropWhile Unit.isBlank ++
        .char (Char.ofNat b.toNat) [b] :: (units t).reverse := by
    rw [units_append_ascii hb.1, List.reverse_append, List.reverse_cons, List.append_assoc,
      List.singleton_append, List.dropWhile_append, List.dropWhile_cons_of_neg hblank]
    split
    · next hempty => rw [List.isEmpty_iff.mp hempty, List.nil_append]
    · rfl
  rw [trimEnd, hdrop]
  simpa [ofUnits, trimEnd, Unit.bytes] using ofUnits_units t

theorem trimEnd_concat {b : UInt8} (hb : IsVisible b) (t : Text) : trimEnd (t ++ [b]) = t ++ [b] :=
  trimEnd_append_cons hb t []

/-- White space in front is trimmed. -/
theorem trim_blank_cons (t : Text) : trim (0x20 :: t) = trim t := by
  have hunits : units (0x20 :: t) = .char ' ' [0x20] :: units t :=
    units_append_of_encodes (encodes_ascii (b := 0x20) (by decide)) t
  have hblank : Unit.isBlank (.char ' ' [0x20]) = true := by decide
  rw [trim, trim, hunits, List.dropWhile_cons_of_pos hblank]

/-- A text that starts and ends with a visible byte is trimmed. -/
theorem trim_eq_self {a b : UInt8} {t u p : Text} (ha : IsVisible a) (hb : IsVisible b)
    (hstart : p = a :: t) (hend : p = u ++ [b]) : trim p = p := by
  have hunits : units p = .char (Char.ofNat a.toNat) [a] :: units t := by
    rw [hstart]
    exact units_append_of_encodes (encodes_ascii ha.1) t
  have hblank : Unit.isBlank (.char (Char.ofNat a.toNat) [a]) = false := ha.2
  have hdrop : (units p).dropWhile Unit.isBlank = units p := by
    rw [hunits, List.dropWhile_cons_of_neg (by simp [hblank])]
  rw [trim, hdrop]
  exact hend ▸ trimEnd_concat hb u

/-! ## What trimming leaves alone -/

/-- A text that white space neither starts nor ends. -/
structure IsTrimmed (t : Text) : Prop where
  start : ∀ c, isBlank c = true → ¬String.utf8EncodeChar c <+: t
  finish : ∀ c, isBlank c = true → ¬String.utf8EncodeChar c <:+ t

variable {t : Text}

/-- Texts with the same pieces are the same. -/
theorem units_inj {s : Text} : units s = units t ↔ s = t := by
  refine ⟨fun h => ?_, congrArg units⟩
  rw [← ofUnits_units s, h, ofUnits_units]

/-- A piece that is white space is a character as it is written. -/
theorem exists_of_isBlank {u : Unit} (hproper : u.Proper) (h : u.isBlank = true) :
    ∃ c, StubDecl.isBlank c = true ∧ u = .char c (String.utf8EncodeChar c) := by
  cases u with
  | char c bs =>
    obtain rfl := Encodes.eq hproper
    exact ⟨c, h, rfl⟩
  | stray b => cases h

theorem dropWhile_units_eq_self_iff : (units t).dropWhile Unit.isBlank = units t ↔
    ∀ c, StubDecl.isBlank c = true → ¬String.utf8EncodeChar c <+: t := by
  constructor
  · rintro h c hc ⟨r, rfl⟩
    have hblank : Unit.isBlank (.char c (String.utf8EncodeChar c)) = true := hc
    rw [units_append_of_encodes (encodes_utf8EncodeChar c), List.dropWhile_cons_of_pos hblank] at h
    have hle := (List.dropWhile_suffix Unit.isBlank (l := units r)).length_le
    have hlength := congrArg List.length h
    rw [List.length_cons] at hlength
    omega
  · intro h
    cases hunits : units t with
    | nil => rfl
    | cons u us =>
      refine List.dropWhile_cons_of_neg fun hu => ?_
      obtain ⟨c, hc, rfl⟩ := exists_of_isBlank (proper_of_mem_units t u (by simp [hunits])) hu
      refine h c hc ⟨ofUnits us, ?_⟩
      rw [← ofUnits_units t, hunits]
      rfl

theorem rdropWhile_units_eq_self_iff : (units t).rdropWhile Unit.isBlank = units t ↔
    ∀ c, StubDecl.isBlank c = true → ¬String.utf8EncodeChar c <:+ t := by
  constructor
  · rintro h c hc ⟨r, rfl⟩
    have hchar : units (String.utf8EncodeChar c) = [.char c (String.utf8EncodeChar c)] := by
      simpa [units, unitsFrom] using units_append_of_encodes (encodes_utf8EncodeChar c) []
    have hblank : Unit.isBlank (.char c (String.utf8EncodeChar c)) = true := hc
    rw [units_append_of_chars (by simp [hchar]), hchar, List.rdropWhile_concat_pos _ _ _ hblank] at h
    have hle := (List.rdropWhile_prefix Unit.isBlank (l := units r)).length_le
    have hlength := congrArg List.length h
    rw [List.length_append, List.length_singleton] at hlength
    omega
  · intro h
    rw [List.rdropWhile_eq_self_iff]
    intro hne hlast
    obtain ⟨c, hc, hu⟩ := exists_of_isBlank (proper_of_mem_units t _ (List.getLast_mem hne)) hlast
    refine h c hc ⟨ofUnits (units t).dropLast, ?_⟩
    conv_rhs => rw [← ofUnits_units t, ← List.dropLast_append_getLast hne, hu]
    simp [ofUnits, Unit.bytes]

/-- Trimming leaves a text alone exactly if white space neither starts nor ends it. -/
theorem trim_eq_self_iff : trim t = t ↔ IsTrimmed t := by
  have hstart : trimStart t = t ↔ ∀ c, StubDecl.isBlank c = true → ¬String.utf8EncodeChar c <+: t := by
    rw [← dropWhile_units_eq_self_iff, ← units_inj, units_trimStart]
  have hfinish : trimEnd t = t ↔ ∀ c, StubDecl.isBlank c = true → ¬String.utf8EncodeChar c <:+ t := by
    rw [← rdropWhile_units_eq_self_iff, ← units_inj, units_trimEnd]
  constructor
  · intro h
    -- what is cut off at the start would be missing at the end
    have hself : trimStart t = t := by
      refine (trimStart_isSuffix t).eq_of_length_le ?_
      conv_lhs => rw [← h, trim_eq]
      exact (trimEnd_isPrefix _).length_le
    rw [trim_eq, hself] at h
    exact ⟨hstart.mp hself, hfinish.mp h⟩
  · rintro ⟨hs, hf⟩
    rw [trim_eq, hstart.mpr hs, hfinish.mpr hf]

end StubDecl.Text
