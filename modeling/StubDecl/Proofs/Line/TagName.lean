import StubDecl.Proofs.Line.TagType

/-!
# Which name a doc tag captures

The brace behind a type need not be there, nor the blank behind the brace, and the brace may itself be in a
name, so that a tag can be read in several ways. If a brace closes the type, the type is all in front of it,
and the name is the longest word behind it, with or without a blank between them; where no word stands there
the brace is the name (`DocTag.parse_closed`).
-/

namespace StubDecl.DocTag

/-! ## Types and names -/

/-- What types consist of: letters, digits, brackets and dots. -/
def InType (b : UInt8) : Prop := Ascii.isAlnum b = true ∨ b ∈ ("[]." : Text)

/-- What names consist of: letters, digits, backticks, braces and at signs. -/
def InName (b : UInt8) : Prop := Ascii.isAlnum b = true ∨ b ∈ ("`\x7b\x7d@" : Text)

theorem isTypeByte_iff {b : UInt8} : isTypeByte b = true ↔ InType b := by
  have hmarks : ("[]." : Text) = [0x5b, 0x5d, 0x2e] := by decide
  simp only [isTypeByte, InType, hmarks, Bool.or_eq_true, decide_eq_true_eq, List.mem_cons,
    List.not_mem_nil, or_false, or_assoc]

theorem isNameByte_iff {b : UInt8} : isNameByte b = true ↔ InName b := by
  have hmarks : ("`\x7b\x7d@" : Text) = [0x60, 0x7b, 0x7d, 0x40] := by decide
  simp only [isNameByte, InName, hmarks, Bool.or_eq_true, decide_eq_true_eq, List.mem_cons,
    List.not_mem_nil, or_false, or_assoc]

/-- A word that can be a name. -/
def IsName (n : Text) : Prop := n ≠ [] ∧ ∀ b ∈ n, InName b

/-- No name goes on in this text: it is empty or starts with another byte. -/
def Stops (r : Text) : Prop := ∀ b ∈ r.head?, ¬InName b

instance (n : Text) : Decidable (IsName n) :=
  decidable_of_iff (n ≠ [] ∧ n.all isNameByte = true) (by
    simp only [IsName, List.all_eq_true, isNameByte_iff])

instance (r : Text) : Decidable (Stops r) :=
  decidable_of_iff (r.head?.all (!isNameByte ·) = true) (by
    cases r <;> simp [Stops, ← isNameByte_iff])

/-- The name `n` belongs to a tag with `rest` behind the closing brace of its type. -/
inductive NameBehind : Text → Text → Prop
  | word {n stop : Text} : IsName n → Stops stop → NameBehind (n ++ stop) n
  | blank {n stop : Text} : IsName n → Stops stop → NameBehind (0x20 :: (n ++ stop)) n
  | brace {rest : Text} : Stops rest → (∀ u, rest = 0x20 :: u → Stops u) → NameBehind rest "\x7d"

/-! ## Words behind a type -/

theorem stops_iff {r : Text} : Stops r ↔ word? r = none := by
  simp only [word?_eq_none_iff, StartsName, Stops, isNameByte_iff, not_exists, not_and]

theorem not_nameFollows_iff {r : Text} : ¬NameFollows r ↔ Stops r ∧ ∀ u, r = 0x20 :: u → Stops u := by
  simp only [NameFollows, stops_iff, word?_eq_none_iff, not_or, not_exists, not_and]

/-- The word at the start of a text is the longest one there. -/
theorem word?_eq_some_iff {r n : Text} :
    word? r = some n ↔ IsName n ∧ ∃ stop, r = n ++ stop ∧ Stops stop := by
  constructor
  · intro h
    obtain ⟨hne, rfl⟩ : r.takeWhile isNameByte ≠ [] ∧ r.takeWhile isNameByte = n := by
      simpa [word?] using h
    refine ⟨⟨hne, fun b hb => ?_⟩, r.dropWhile isNameByte, List.takeWhile_append_dropWhile.symm, ?_⟩
    · exact isNameByte_iff.mp (List.mem_takeWhile_imp hb)
    · intro b hb hname
      exact Bool.eq_false_iff.mp (Text.head?_dropWhile_stop isNameByte r b hb) (isNameByte_iff.mpr hname)
  · rintro ⟨hn, stop, rfl, hstop⟩
    refine word?_append hn.1 (fun b hb => isNameByte_iff.mpr (hn.2 b hb)) fun b hb => ?_
    exact Bool.eq_false_iff.mpr fun hname => hstop b hb (isNameByte_iff.mp hname)

/-! ## The name behind a brace -/

/-- Behind a closing brace a word is looked for behind a blank and then in front of it; the brace is looked
at last. -/
theorem name?_brace (rest : Text) :
    name? (0x7d :: rest) = ((optional 0x20 rest).findSome? word?).or (word? (0x7d :: rest)) := by
  have hlast : optional 0x20 (0x7d :: rest) = [0x7d :: rest] := rfl
  rw [name?, optional, if_pos rfl, List.flatMap_cons, List.flatMap_cons, hlast, List.flatMap_nil,
    List.append_nil, List.findSome?_append, List.findSome?_singleton]

theorem word?_brace {rest : Text} (h : Stops rest) : word? (0x7d :: rest) = some "\x7d" :=
  word?_eq_some_iff.mpr ⟨by decide, rest, rfl, h⟩

theorem NameBehind.name? {rest n : Text} (h : NameBehind rest n) :
    DocTag.name? (0x7d :: rest) = some n := by
  cases h with
  | @word n stop hn hstop =>
    have hword := word?_eq_some_iff.mpr ⟨hn, stop, rfl, hstop⟩
    obtain ⟨b, u, rfl⟩ := List.exists_cons_of_ne_nil hn.1
    have hblank : b ≠ 0x20 := by
      rintro rfl
      exact absurd (isNameByte_iff.mpr (hn.2 0x20 List.mem_cons_self)) (by decide)
    have hskip : optional 0x20 (b :: u ++ stop) = [b :: u ++ stop] := if_neg hblank
    rw [name?_brace, hskip, List.findSome?_singleton, hword, Option.some_or]
  | @blank n stop hn hstop =>
    have hword := word?_eq_some_iff.mpr ⟨hn, stop, rfl, hstop⟩
    have hskip : optional 0x20 (0x20 :: (n ++ stop)) = [n ++ stop, 0x20 :: (n ++ stop)] := rfl
    rw [name?_brace, hskip, List.findSome?_cons, hword, Option.some_or]
  | brace hrest hblank =>
    have hno : ¬NameFollows rest := not_nameFollows_iff.mpr ⟨hrest, hblank⟩
    have hnone : (optional 0x20 rest).findSome? word? = none :=
      List.findSome?_eq_none_iff.mpr (word?_optional_eq_none_iff.mpr hno)
    rw [name?_brace, hnone, Option.none_or]
    exact word?_brace hrest

/-- There is always a name. -/
theorem exists_nameBehind (rest : Text) : ∃ n, NameBehind rest n := by
  cases hrest : word? rest with
  | some n =>
    obtain ⟨hn, stop, rfl, hstop⟩ := word?_eq_some_iff.mp hrest
    exact ⟨n, .word hn hstop⟩
  | none =>
    by_cases hblank : ∀ u, rest = 0x20 :: u → Stops u
    · exact ⟨_, .brace (stops_iff.mpr hrest) hblank⟩
    · push Not at hblank
      obtain ⟨u, rfl, hu⟩ := hblank
      obtain ⟨n, hword⟩ := Option.ne_none_iff_exists'.mp fun hnone => hu (stops_iff.mpr hnone)
      obtain ⟨hn, stop, rfl, hstop⟩ := word?_eq_some_iff.mp hword
      exact ⟨n, .blank hn hstop⟩

/-- **A tag with a closed type is captured exactly.** Whatever stands behind the brace, the type is all that
stands in front of it, and the name is the longest word behind the brace or behind a blank there, or the
brace if there is no such word. -/
theorem parse_closed (k : Kind) {pre ty : Text} (rest : Text) (hpre : 0x40 ∉ pre) (hne : ty ≠ [])
    (hty : ∀ b ∈ ty, InType b) :
    ∃ n, parse (pre ++ 0x40 :: (k.word ++ (" \x7b" : Text) ++ (ty ++ 0x7d :: rest))) = some ⟨k, ty, n⟩ ∧
      NameBehind rest n ∧
      ∀ w stop, rest = 0x20 :: (w ++ stop) → IsName w → Stops stop → n = w := by
  obtain ⟨n, hn⟩ := exists_nameBehind rest
  have htype : ∀ b ∈ ty, isTypeByte b = true := fun b hb => isTypeByte_iff.mpr (hty b hb)
  refine ⟨n, parse_tag k hpre hne htype hn.name?, hn, ?_⟩
  rintro w stop rfl hw hstop
  exact Option.some.inj (hn.name?.symm.trans (NameBehind.blank hw hstop).name?)

/-- Braces and at signs in the name do not shorten the type. -/
theorem parse_closed_quoted :
    (0x40 : UInt8) ∉ (" * " : Text) ∧ ("com.Pair[]" : Text) ≠ [] ∧
      (∀ b ∈ ("com.Pair[]" : Text), InType b) ∧ IsName "`\x7b@x\x7d`" ∧ Stops ": both" ∧
      parse " * @return \x7bcom.Pair[]\x7d `\x7b@x\x7d`: both" =
        some ⟨.returns, "com.Pair[]", "`\x7b@x\x7d`"⟩ := by
  have hall : ("com.Pair[]" : Text).all isTypeByte = true := by decide
  have htype : ∀ b ∈ ("com.Pair[]" : Text), InType b :=
    fun b hb => isTypeByte_iff.mp (List.all_eq_true.mp hall b hb)
  refine ⟨by decide, by decide, htype, by decide, by decide, ?_⟩
  obtain ⟨n, hparse, -, hname⟩ := @parse_closed .returns " * " "com.Pair[]" " `\x7b@x\x7d`: both"
    (by decide) (by decide) htype
  obtain rfl := hname "`\x7b@x\x7d`" ": both" (by decide) (by decide) (by decide)
  exact hparse

end StubDecl.DocTag
