import StubDecl.Proofs.Line.DocTag
import StubDecl.Proofs.Line.Parameter

/-!
# Lines that start with a word

All declarations start with a word: letters and digits, up to a byte that is neither
(`Line.word?_append`). Such a line opens and closes no doc block, so that its shape depends only on what
follows the word (`Line.classify_word`, `Line.isTrash_word`).
-/

namespace StubDecl

/-- Letters and digits, at least one. -/
def IsWord (w : Text) : Prop := w ≠ [] ∧ w.all Ascii.isAlnum = true

instance (w : Text) : Decidable (IsWord w) := inferInstanceAs (Decidable (_ ∧ _))

/-- No letter or digit comes first. -/
def EndsWord (r : Text) : Prop := ∀ b ∈ r.head?, Ascii.isAlnum b = false

/-- A byte that is no letter or digit ends a word. -/
theorem endsWord_cons {b : UInt8} (hb : Ascii.isAlnum b = false) (t : Text) : EndsWord (b :: t) := by
  rintro _ ⟨rfl⟩
  exact hb

namespace Ascii

/-- Letters and digits lie between the digit 0 and the letter z. -/
theorem isAlnum_bounds {b : UInt8} (h : isAlnum b = true) : 0x30 ≤ b.toNat ∧ b.toNat ≤ 0x7a := by
  simp only [isAlnum, isLetter, isDigit, Bool.or_eq_true, Bool.and_eq_true, decide_eq_true_eq,
    UInt8.le_iff_toNat_le, UInt8.reduceToNat] at h
  omega

theorem isVisible_of_isAlnum {b : UInt8} (h : isAlnum b = true) : Text.IsVisible b := by
  have hall : ∀ n < 0x80, 0x30 ≤ n → isBlank (Char.ofNat n) = false := by decide
  obtain ⟨hlow, hhigh⟩ := isAlnum_bounds h
  exact ⟨by omega, hall b.toNat (by omega) hlow⟩

theorem ne_of_isAlnum {b c : UInt8} (h : isAlnum b = true) (hc : isAlnum c = false) : b ≠ c := by
  rintro rfl
  rw [h] at hc
  cases hc

end Ascii

namespace IsWord

variable {w : Text}

theorem isAlnum (hw : IsWord w) : ∀ b ∈ w, Ascii.isAlnum b = true := List.all_eq_true.mp hw.2

theorem notMem (hw : IsWord w) {c : UInt8} (hc : Ascii.isAlnum c = false) : c ∉ w :=
  fun hmem => Ascii.ne_of_isAlnum (hw.isAlnum c hmem) hc rfl

/-- The first byte of a word. -/
theorem exists_cons (hw : IsWord w) : ∃ b t, w = b :: t ∧ Ascii.isAlnum b = true := by
  obtain ⟨b, t, rfl⟩ := List.exists_cons_of_ne_nil hw.1
  exact ⟨b, t, rfl, hw.isAlnum b List.mem_cons_self⟩

/-- The last byte of a word. -/
theorem exists_concat (hw : IsWord w) : ∃ t b, w = t ++ [b] ∧ Ascii.isAlnum b = true := by
  obtain rfl | ⟨t, b, rfl⟩ := w.eq_nil_or_concat'
  · exact absurd rfl hw.1
  · exact ⟨t, b, rfl, hw.isAlnum b (by simp)⟩

theorem trim_eq (hw : IsWord w) : w.trim = w := by
  obtain ⟨a, t, hstart, ha⟩ := hw.exists_cons
  obtain ⟨u, b, hend, hb⟩ := hw.exists_concat
  exact Text.trim_eq_self (Ascii.isVisible_of_isAlnum ha) (Ascii.isVisible_of_isAlnum hb) hstart hend

end IsWord

namespace Line

variable {t w r : Text}

theorem word?_append (hw : IsWord w) (hr : EndsWord r) : word? (w ++ r) = some (w, r) := by
  have htake : (w ++ r).takeWhile Ascii.isAlnum = w := Text.takeWhile_append_stop hw.isAlnum hr
  have hdrop : (w ++ r).dropWhile Ascii.isAlnum = r := Text.dropWhile_append_stop hw.isAlnum hr
  have hempty : w.isEmpty = false := List.isEmpty_eq_false_iff.mpr hw.1
  simp only [word?, htake, hdrop, hempty, Bool.false_eq_true, if_false]

theorem afterWord?_append (hw : IsWord w) (hr : EndsWord r) (sep : Text) :
    afterWord? sep (w ++ r) = r.dropPrefix? sep := by
  rw [afterWord?, word?_append hw hr, Option.bind_some]

/-- A word that was read stands at the start of the text. -/
theorem eq_append_of_word? (h : word? t = some (w, r)) : t = w ++ r ∧ IsWord w := by
  simp only [word?] at h
  split at h
  · cases h
  · next hne =>
    cases h
    exact ⟨List.takeWhile_append_dropWhile.symm, by simpa using hne, List.all_takeWhile⟩

theorem exists_of_afterWord? {sep : Text} (h : afterWord? sep t = some r) :
    ∃ w, t = w ++ (sep ++ r) ∧ IsWord w := by
  obtain ⟨⟨w, u⟩, hword, hu⟩ := Option.bind_eq_some_iff.mp h
  obtain ⟨rfl, hw⟩ := eq_append_of_word? hword
  rw [Text.eq_append_of_dropPrefix? hu]
  exact ⟨w, rfl, hw⟩

theorem isWord_of_class? (h : class? t = some w) : IsWord w := by
  obtain ⟨u, -, hu⟩ := Option.bind_eq_some_iff.mp h
  obtain ⟨⟨c, rest⟩, hword, hc⟩ := Option.bind_eq_some_iff.mp hu
  cases hc
  exact (eq_append_of_word? hword).2

/-- A word that a dot follows is no class line, even if it is `function`. -/
theorem class?_dot (hw : IsWord w) (u : Text) : class? (w ++ 0x2e :: u) = none := by
  have hdrop : Text.dropPrefix? (w ++ 0x2e :: u) "function " = none := by
    rw [Option.eq_none_iff_forall_not_mem]
    intro v hv
    -- the word that comes first cannot be followed by both a dot and a blank
    have hword := congrArg word? (Text.eq_append_of_dropPrefix? hv)
    have hfunction : word? (("function " : Text) ++ v) = some (("function" : Text), 0x20 :: v) := rfl
    rw [word?_append hw (endsWord_cons (by decide) u), hfunction] at hword
    simp at hword
  rw [class?, hdrop]
  rfl

theorem isWord_of_extension? (h : extension? t = some w) : IsWord w := by
  obtain ⟨u, -, hu⟩ := Option.bind_eq_some_iff.mp h
  obtain ⟨⟨p, rest⟩, hword, hp⟩ := Option.bind_eq_some_iff.mp hu
  cases hp
  exact (eq_append_of_word? hword).2

theorem exists_of_skipBlanks (t : Text) : ∃ u, t = u ++ skipBlanks t ∧ ∀ b ∈ u, b = 0x20 :=
  ⟨t.takeWhile (· = 0x20), List.takeWhile_append_dropWhile.symm, fun b hb => by
    simpa using List.all_eq_true.mp List.all_takeWhile b hb⟩

/-- The parts of a method line: its receiver, the name of the method, blanks on both sides of the equals sign,
and the parameters. -/
theorem parts_of_method? {m ps : Text} (h : method? t = some (m, ps)) :
    ∃ c u v r, t = c ++ (".prototype." ++ (m ++ (u ++ ("=" ++ (v ++ ("function(" ++ r)))))) ∧ IsWord c ∧
      IsWord m ∧ (∀ b ∈ u, b = 0x20) ∧ (∀ b ∈ v, b = 0x20) ∧ ps = Parameter.list r := by
  obtain ⟨r₁, hreceiver, h⟩ := Option.bind_eq_some_iff.mp h
  obtain ⟨⟨m', r₂⟩, hname, h⟩ := Option.bind_eq_some_iff.mp h
  obtain ⟨r₃, hequals, h⟩ := Option.bind_eq_some_iff.mp h
  obtain ⟨r, hfunction, h⟩ := Option.bind_eq_some_iff.mp h
  obtain ⟨rfl, rfl⟩ : m' = m ∧ Parameter.list r = ps := by simpa using h
  obtain ⟨c, rfl, hc⟩ := exists_of_afterWord? hreceiver
  obtain ⟨rfl, hm⟩ := eq_append_of_word? hname
  obtain ⟨u, hu, hublank⟩ := exists_of_skipBlanks r₂
  obtain ⟨v, hv, hvblank⟩ := exists_of_skipBlanks r₃
  rw [Text.eq_append_of_dropPrefix? hequals] at hu
  rw [Text.eq_append_of_dropPrefix? hfunction] at hv
  exact ⟨c, u, v, r, by rw [hu, hv], hc, hm, hublank, hvblank, rfl⟩

/-- A line that starts with a word does not start with a byte that is no letter or digit. -/
theorem startsWith_word (hw : IsWord w) {c : UInt8} (hc : Ascii.isAlnum c = false) (r pre : Text) :
    Text.startsWith (w ++ r) (c :: pre) = false := by
  obtain ⟨b, t, rfl, hb⟩ := hw.exists_cons
  exact Text.startsWith_eq_false (Ascii.ne_of_isAlnum hb hc) _ _

/-- Whether a line opens a literal is decided by its last byte. -/
theorem isCodeStart_append_cons (t : Text) (b : UInt8) (u : Text) :
    isCodeStart (t ++ b :: u) = isCodeStart (b :: u) := by
  have hlength : ("\x7b" : Text).length ≤ (b :: u).length := Nat.le_add_left 1 u.length
  exact Text.endsWith_append hlength t

/-- A line that starts with a word is trash only as a property with a plain value. -/
theorem isTrash_word (hw : IsWord w) (r : Text)
    (hvalue : ∀ v ∈ propertyValue? (w ++ r), v.startsWith "function" = true) :
    isTrash (w ++ r) = false := by
  have hempty : (w ++ r).isEmpty = false := by simp [hw.1]
  have hcomment : Text.startsWith (w ++ r) "/* " = false := startsWith_word hw (by decide) r _
  rw [isTrash, hempty, hcomment]
  cases hv : propertyValue? (w ++ r) with
  | none => rfl
  | some v => exact congrArg not (hvalue v hv)

/-- The shapes of lines outside of doc blocks, in the order in which they are tried. -/
def declarationShape (t : Text) : LineShape :=
  if isCodeStart t then .codeStart
  else match extension? t with
  | some p => .extension p
  | none => match class? t with
    | some c => .classLine c
    | none => match method? t with
      | some (m, ps) => .methodLine m ps
      | none =>
        if isVariable t then .variableLine
        else if isCodeEnd t then .codeEnd
        else .unknown

/-- A line without at sign that starts with a word opens a literal or is a declaration. -/
theorem classify_word (hw : IsWord w) (hat : 0x40 ∉ w ++ r) (ht : isTrash (w ++ r) = false) :
    classify (w ++ r) = declarationShape (w ++ r) := by
  have hstart : isDocStart (w ++ r) = false := startsWith_word hw (by decide) r _
  have hend : isDocEnd (w ++ r) = false := startsWith_word hw (by decide) r _
  simp only [classify, ht, hstart, hend, DocTag.parse_of_notMem hat, Bool.false_eq_true, if_false]
  rfl

/-! ## What the shape of a line says -/

theorem isDocStart_of_classify (h : classify t = .docStart) : isDocStart t = true := by
  by_contra hstart
  unfold classify at h
  split at h
  · cases h
  · repeat' split at h
    all_goals cases h

theorem isCodeStart_of_classify (h : classify t = .codeStart) : isCodeStart t = true := by
  unfold classify at h
  repeat' split at h
  all_goals cases h
  assumption

/-- A line that opens a literal does not close it. -/
theorem isCodeEnd_of_isCodeStart (h : isCodeStart t = true) : isCodeEnd t = false := by
  obtain ⟨u, rfl⟩ := List.isSuffixOf_iff_suffix.mp h
  rw [Bool.eq_false_iff]
  intro hend
  obtain ⟨v, hv⟩ := List.isSuffixOf_iff_suffix.mp hend
  have hbytes : v ++ [0x7d] ++ [0x3b] = u ++ [0x7b] := (List.append_assoc v _ _).trans hv
  exact absurd (List.append_inj_right' hbytes rfl) (by decide)

theorem class?_of_classify (h : classify t = .classLine w) : class? t = some w := by
  unfold classify at h
  repeat' split at h
  all_goals cases h
  assumption

theorem extension?_of_classify (h : classify t = .extension w) : extension? t = some w := by
  unfold classify at h
  repeat' split at h
  all_goals cases h
  assumption

theorem method?_of_classify {m ps : Text} (h : classify t = .methodLine m ps) :
    method? t = some (m, ps) := by
  unfold classify at h
  repeat' split at h
  all_goals cases h
  assumption

end Line

end StubDecl
