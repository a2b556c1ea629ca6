import Mathlib.Data.List.Basic
import StubDecl.Proofs.Text.Lines
import StubDecl.TypeTable

/-!
# Reading doc tags

A tag that is written with both braces is read back as it was written (`DocTag.parse_tag`), and its name
is the word behind a blank (`DocTag.name?_word`).
-/

namespace StubDecl.DocTag

/-- A text without an at sign has no tag. -/
theorem parse_of_notMem {t : Text} (h : 0x40 ∉ t) : parse t = none := by
  induction t with
  | nil => rfl
  | cons b t ih =>
    obtain ⟨hb, ht⟩ : (0x40 : UInt8) ≠ b ∧ 0x40 ∉ t := by simpa using h
    rw [parse, if_neg hb.symm, ih ht]

/-- What stands in front of the first at sign does not matter. -/
theorem parse_append {pre : Text} (h : 0x40 ∉ pre) (t : Text) : parse (pre ++ t) = parse t := by
  induction pre with
  | nil => rfl
  | cons b pre ih =>
    obtain ⟨hb, hpre⟩ : (0x40 : UInt8) ≠ b ∧ 0x40 ∉ pre := by simpa using h
    rw [List.cons_append, parse, if_neg hb.symm, ih hpre]

theorem word?_append {n stop : Text} (hne : n ≠ []) (hn : ∀ b ∈ n, isNameByte b = true)
    (hstop : ∀ b ∈ stop.head?, isNameByte b = false) : word? (n ++ stop) = some n := by
  have htake : (n ++ stop).takeWhile isNameByte = n := Text.takeWhile_append_stop hn hstop
  have hempty : n.isEmpty = false := List.isEmpty_eq_false_iff.mpr hne
  simp only [word?, htake, hempty, Bool.false_eq_true, if_false]

/-- The name behind a closing brace and a blank. -/
theorem name?_word {n stop : Text} (hne : n ≠ []) (hn : ∀ b ∈ n, isNameByte b = true)
    (hstop : ∀ b ∈ stop.head?, isNameByte b = false) :
    name? (0x7d :: 0x20 :: (n ++ stop)) = some n := by
  simp only [name?, optional, if_true, List.flatMap_cons, List.cons_append, List.findSome?_cons,
    word?_append hne hn hstop]

/-- The type reaches up to the brace, if a name follows. -/
theorem typeAndName?_brace {ty rest n : Text} (hne : ty ≠ []) (hty : ∀ b ∈ ty, isTypeByte b = true)
    (hn : name? (0x7d :: rest) = some n) : typeAndName? (ty ++ 0x7d :: rest) = some (ty, n) := by
  have htake : (ty ++ 0x7d :: rest).takeWhile isTypeByte = ty := by
    rw [List.takeWhile_append_of_pos hty, List.takeWhile_cons_of_neg (by decide), List.append_nil]
  obtain ⟨k, hk⟩ : ∃ k, ty.length = k + 1 :=
    Nat.exists_eq_succ_of_ne_zero (fun h => hne (List.length_eq_zero_iff.mp h))
  simp only [typeAndName?, htake, hk, List.range_succ_eq_map, List.findSome?_cons, Nat.sub_zero]
  rw [← hk, List.drop_left, List.take_left, hn]
  rfl

/-- **A tag is read back as it was written**, whatever stands in front of it. -/
theorem parse_tag (k : Kind) {pre ty rest n : Text} (hpre : 0x40 ∉ pre) (hne : ty ≠ [])
    (hty : ∀ b ∈ ty, isTypeByte b = true) (hn : name? (0x7d :: rest) = some n) :
    parse (pre ++ 0x40 :: (k.word ++ (" \x7b" : Text) ++ (ty ++ 0x7d :: rest))) = some ⟨k, ty, n⟩ := by
  have hkind : ofKind? k (k.word ++ (" \x7b" : Text) ++ (ty ++ 0x7d :: rest)) = some ⟨k, ty, n⟩ := by
    rw [ofKind?, Text.dropPrefix?_append, Option.bind_some, typeAndName?_brace hne hty hn]
    rfl
  rw [parse_append hpre, parse, if_pos rfl]
  cases k with
  | returns =>
    rw [hkind]
    rfl
  | param =>
    have hother : ofKind? .returns
        (Kind.param.word ++ (" \x7b" : Text) ++ (ty ++ 0x7d :: rest)) = none := rfl
    rw [hother, hkind]
    rfl

/-! ## Types of tags -/

theorem type_of_typeAndName? {t ty n : Text} (h : typeAndName? t = some (ty, n)) :
    ty ≠ [] ∧ ∀ b ∈ ty, isTypeByte b = true := by
  obtain ⟨k, hk, hcut⟩ := List.exists_of_findSome?_eq_some h
  obtain ⟨w, -, hw⟩ := Option.map_eq_some_iff.mp hcut
  obtain ⟨rfl, rfl⟩ := Prod.mk.inj hw
  have hlt := List.mem_range.mp hk
  have hstart : (t.takeWhile isTypeByte ++ t.dropWhile isTypeByte).take
      ((t.takeWhile isTypeByte).length - k) =
        (t.takeWhile isTypeByte).take ((t.takeWhile isTypeByte).length - k) :=
    List.take_append_of_le_length (Nat.sub_le _ k)
  rw [List.takeWhile_append_dropWhile] at hstart
  rw [hstart]
  constructor
  · intro hnil
    have hlen := congrArg List.length hnil
    rw [List.length_take, List.length_nil] at hlen
    omega
  · intro b hb
    exact List.all_eq_true.mp List.all_takeWhile b (List.mem_of_mem_take hb)

/-- A tag gives a type: it is not empty, and all its bytes may stand in a type. -/
theorem type_of_parse {t : Text} {tag : DocTag} (h : parse t = some tag) :
    tag.type ≠ [] ∧ ∀ b ∈ tag.type, isTypeByte b = true := by
  have hkind : ∀ k u, ofKind? k u = some tag → tag.type ≠ [] ∧ ∀ b ∈ tag.type, isTypeByte b = true := by
    intro k u hu
    obtain ⟨r, -, hr⟩ := Option.bind_eq_some_iff.mp hu
    obtain ⟨⟨ty, n⟩, hread, rfl⟩ := Option.map_eq_some_iff.mp hr
    exact type_of_typeAndName? hread
  induction t with
  | nil => cases h
  | cons b t ih =>
    rw [parse] at h
    split at h
    · cases hreturns : ofKind? .returns t with
      | some tag' =>
        rw [hreturns] at h
        cases h
        exact hkind _ _ hreturns
      | none =>
        rw [hreturns] at h
        cases hparam : ofKind? .param t with
        | some tag' =>
          rw [hparam] at h
          cases h
          exact hkind _ _ hparam
        | none =>
          rw [hparam] at h
          exact ih h
    · exact ih h

end StubDecl.DocTag
