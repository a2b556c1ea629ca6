import Mathlib.Data.Option.Basic
import StubDecl.Proofs.Line.DocTag

/-!
# Which types a doc tag captures

A tag is read at the first place of a line at which one can be read (`DocTag.parse_eq_some`,
`DocTag.parse_eq_none_iff`). If the braces hold a type, the tag has the whole of it. If they hold
anything else, the tag is not always refused: the type gives bytes back until one of them can start a
name, and what is left of it is captured (`DocTag.captures_whole_iff`).
-/

namespace StubDecl.DocTag

/-! ## Texts with a type -/

/-- A type that can be written in a tag: letters, digits, brackets and dots, at least one. -/
def IsType (ty : Text) : Prop := ty ≠ [] ∧ ∀ b ∈ ty, isTypeByte b = true

/-- The text up to the next closing brace, if there is one. -/
def braced? (r : Text) : Option Text :=
  if 0x7d ∈ r then some (r.takeWhile (· ≠ 0x7d)) else none

/-- A name can start here. -/
def StartsName (r : Text) : Prop := ∃ b ∈ r.head?, isNameByte b = true

/-- A name stands behind a type, with or without a blank between them. A closing brace is a name if
need be. -/
def NameFollows (r : Text) : Prop := StartsName r ∨ ∃ u, r = 0x20 :: u ∧ StartsName u

/-- There is no tag in front of this text: it does not start with a type, or no name follows the type
and no byte of the type but the first could start one. -/
def Refused (r : Text) : Prop :=
  r.takeWhile isTypeByte = [] ∨
    ¬NameFollows (r.dropWhile isTypeByte) ∧
      ∀ b ∈ (r.takeWhile isTypeByte).tail, Ascii.isAlnum b = false

/-- `rest` stands behind the brace that opens the type of a tag, and `pre` in front of its at sign. -/
def Opens (t pre : Text) (k : Kind) (rest : Text) : Prop :=
  t = pre ++ 0x40 :: (k.word ++ (" \x7b" : Text) ++ rest)

theorem braced?_eq_some_iff {r ty : Text} :
    braced? r = some ty ↔ 0x7d ∉ ty ∧ ∃ after, r = ty ++ 0x7d :: after := by
  have hnone : ∀ {u : Text}, 0x7d ∉ u → ∀ b ∈ u, decide (b ≠ 0x7d) = true := by
    intro u hu b hb
    exact decide_eq_true fun h => hu (h ▸ hb)
  constructor
  · intro h
    rw [braced?] at h
    split at h
    · next hmem =>
      obtain ⟨u, after, rfl, hu⟩ := List.eq_append_cons_of_mem hmem
      rw [Text.takeWhile_append_stop (hnone hu) (by simp)] at h
      cases h
      exact ⟨hu, after, rfl⟩
    · cases h
  · rintro ⟨hty, after, rfl⟩
    rw [braced?, if_pos (by simp), Text.takeWhile_append_stop (hnone hty) (by simp)]

/-! ## The name behind a type -/

theorem word?_eq_none_iff {r : Text} : word? r = none ↔ ¬StartsName r := by
  cases r with
  | nil => simp [word?, StartsName]
  | cons b u => cases h : isNameByte b <;> simp [word?, StartsName, h]

/-- No name is found behind a blank or in front of it. -/
theorem word?_optional_eq_none_iff {r : Text} :
    (∀ u ∈ optional 0x20 r, word? u = none) ↔ ¬NameFollows r := by
  have hblank : ∀ u : Text, ¬StartsName (0x20 :: u) := by
    rintro u ⟨b, hb, hname⟩
    obtain rfl : (0x20 : UInt8) = b := by simpa using hb
    exact absurd hname (by decide)
  cases r with
  | nil => simp [optional, word?_eq_none_iff, NameFollows, StartsName]
  | cons b u =>
    by_cases hb : b = 0x20
    · subst hb
      simp [optional, word?_eq_none_iff, NameFollows, hblank]
    · simp [optional, word?_eq_none_iff, NameFollows, hb]

theorem name?_eq_none_iff {r : Text} : name? r = none ↔ ¬NameFollows r := by
  rw [name?, List.findSome?_eq_none_iff]
  simp only [List.mem_flatMap, forall_exists_index, and_imp]
  have hswap : (∀ v u, u ∈ optional 0x7d r → v ∈ optional 0x20 u → word? v = none) ↔
      ∀ u ∈ optional 0x7d r, ¬NameFollows u := by
    simp only [← word?_optional_eq_none_iff]
    exact ⟨fun h u hu v hv => h v u hu hv, fun h v u hu hv => h u hu v hv⟩
  rw [hswap]
  cases r with
  | nil => simp [optional]
  | cons b u =>
    by_cases hb : b = 0x7d
    · -- the brace itself is a name, so that nothing depends on what stands behind it
      subst hb
      have hself : NameFollows (0x7d :: u) := .inl ⟨0x7d, rfl, rfl⟩
      simp [optional, hself]
    · simp [optional, hb]

/-- Of the bytes of a type the letters and digits can start a name. -/
theorem name?_typeByte {b : UInt8} (hb : isTypeByte b = true) (u : Text) :
    name? (b :: u) = none ↔ Ascii.isAlnum b = false := by
  have hname : isNameByte b = Ascii.isAlnum b := by
    cases h : Ascii.isAlnum b with
    | true => simp [isNameByte, h]
    | false =>
      have hmark : b = 0x5b ∨ b = 0x5d ∨ b = 0x2e := by simpa [isTypeByte, h, or_assoc] using hb
      obtain rfl | rfl | rfl := hmark <;> rfl
  have hblank : b ≠ 0x20 := by
    rintro rfl
    exact absurd hb (by decide)
  simp [name?_eq_none_iff, NameFollows, StartsName, hname, hblank]

/-! ## The type -/

/-- A type and what stands behind it are cut at the end of the type or in front of a byte of the type
that is not the first. -/
theorem typeAndName?_append_eq_none_iff {ty rest : Text} (hty : ∀ b ∈ ty, isTypeByte b = true)
    (hstop : ∀ b ∈ rest.head?, isTypeByte b = false) :
    typeAndName? (ty ++ rest) = none ↔
      ty = [] ∨ ¬NameFollows rest ∧ ∀ b ∈ ty.tail, Ascii.isAlnum b = false := by
  have hcuts : typeAndName? (ty ++ rest) = none ↔
      ∀ k < ty.length, name? ((ty ++ rest).drop (ty.length - k)) = none := by
    simp only [typeAndName?, Text.takeWhile_append_stop hty hstop, List.findSome?_eq_none_iff,
      List.mem_range, Option.map_eq_none_iff]
  rw [hcuts]
  cases ty with
  | nil => simp
  | cons b u =>
    simp only [reduceCtorEq, false_or, List.tail_cons]
    constructor
    · intro h
      constructor
      · have hend := h 0 (Nat.succ_pos _)
        rwa [Nat.sub_zero, List.drop_left, name?_eq_none_iff] at hend
      · intro c hc
        obtain ⟨v, w, rfl⟩ := List.append_of_mem hc
        have hlong : (b :: (v ++ c :: w)).length = (b :: v).length + (w.length + 1) := by
          simp only [List.length_cons, List.length_append]
          omega
        have hcut := h (w.length + 1) (by simp only [hlong, List.length_cons]; omega)
        have hlen : (b :: (v ++ c :: w)).length - (w.length + 1) = (b :: v).length := by
          rw [hlong, Nat.add_sub_cancel]
        have hsplit : b :: (v ++ c :: w) ++ rest = (b :: v) ++ c :: (w ++ rest) := by simp
        rw [hlen, hsplit, List.drop_left] at hcut
        exact (name?_typeByte (hty c (by simp)) _).mp hcut
    · rintro ⟨hend, hbytes⟩ k hk
      cases k with
      | zero => rwa [Nat.sub_zero, List.drop_left, name?_eq_none_iff]
      | succ k =>
        have hlt : u.length - (k + 1) < u.length := by
          simp only [List.length_cons] at hk
          omega
        have hlen : (b :: u).length - (k + 1) = (u.length - (k + 1)) + 1 := by
          simp only [List.length_cons] at hk ⊢
          omega
        rw [hlen, List.cons_append, List.drop_succ_cons, List.drop_append_of_le_length (Nat.le_of_lt hlt),
          List.drop_eq_getElem_cons hlt, List.cons_append,
          name?_typeByte (hty _ (List.mem_cons_of_mem b (List.getElem_mem hlt)))]
        exact hbytes _ (List.getElem_mem hlt)

theorem typeAndName?_eq_none_iff {r : Text} : typeAndName? r = none ↔ Refused r := by
  have hcut := typeAndName?_append_eq_none_iff
    (fun b hb => List.all_eq_true.mp (List.all_takeWhile (l := r)) b hb)
    (Text.head?_dropWhile_stop isTypeByte r)
  rwa [List.takeWhile_append_dropWhile] at hcut

theorem prefix_of_typeAndName? {r ty n : Text} (h : typeAndName? r = some (ty, n)) : ty <+: r := by
  obtain ⟨k, -, hcut⟩ := List.exists_of_findSome?_eq_some h
  obtain ⟨w, -, hw⟩ := Option.map_eq_some_iff.mp hcut
  obtain ⟨rfl, rfl⟩ := Prod.mk.inj hw
  exact List.take_prefix _ r

/-- A type in braces is captured whole, since the closing brace is a name if nothing else is. -/
theorem typeAndName?_of_braced {r ty ty' n : Text} (hr : braced? r = some ty) (hty : IsType ty)
    (h : typeAndName? r = some (ty', n)) : ty' = ty := by
  obtain ⟨-, after, rfl⟩ := braced?_eq_some_iff.mp hr
  obtain ⟨w, hw⟩ : ∃ w, name? (0x7d :: after) = some w :=
    Option.ne_none_iff_exists'.mp fun hnone => name?_eq_none_iff.mp hnone (.inl ⟨0x7d, rfl, rfl⟩)
  rw [typeAndName?_brace hty.1 hty.2 hw] at h
  cases h
  rfl

/-! ## The place of a tag -/

theorem ofKind?_eq_some_iff {k : Kind} {t : Text} {tag : DocTag} :
    ofKind? k t = some tag ↔ tag.kind = k ∧ ∃ rest, t = k.word ++ (" \x7b" : Text) ++ rest ∧
      typeAndName? rest = some (tag.type, tag.name) := by
  constructor
  · intro h
    obtain ⟨rest, hrest, hr⟩ := Option.bind_eq_some_iff.mp h
    obtain ⟨⟨ty, n⟩, hread, rfl⟩ := Option.map_eq_some_iff.mp hr
    exact ⟨rfl, rest, Text.eq_append_of_dropPrefix? hrest, hread⟩
  · rintro ⟨rfl, rest, rfl, hread⟩
    rw [ofKind?, Text.dropPrefix?_append, Option.bind_some, hread]
    rfl

theorem ofKind?_eq_none_iff {k : Kind} {t : Text} :
    ofKind? k t = none ↔ ∀ rest, t = k.word ++ (" \x7b" : Text) ++ rest → Refused rest := by
  constructor
  · rintro h rest rfl
    rw [ofKind?, Text.dropPrefix?_append, Option.bind_some, Option.map_eq_none_iff] at h
    exact typeAndName?_eq_none_iff.mp h
  · intro h
    by_contra hne
    obtain ⟨tag, htag⟩ := Option.ne_none_iff_exists'.mp hne
    obtain ⟨-, rest, hrest, hread⟩ := ofKind?_eq_some_iff.mp htag
    rw [typeAndName?_eq_none_iff.mpr (h rest hrest)] at hread
    cases hread

theorem opens_cons_iff {b : UInt8} {t pre rest : Text} {k : Kind} :
    Opens (b :: t) pre k rest ↔ (pre = [] ∧ b = 0x40 ∧ t = k.word ++ (" \x7b" : Text) ++ rest) ∨
      ∃ u, pre = b :: u ∧ Opens t u k rest := by
  cases pre with
  | nil => simp [Opens]
  | cons c pre =>
    simp only [Opens, List.cons_append, List.cons.injEq, reduceCtorEq, false_and, false_or]
    constructor
    · rintro ⟨rfl, h⟩
      exact ⟨pre, ⟨rfl, rfl⟩, h⟩
    · rintro ⟨u, ⟨rfl, rfl⟩, h⟩
      exact ⟨rfl, h⟩

/-- A line has no tag if all its openings are refused. -/
theorem parse_eq_none_iff {t : Text} :
    parse t = none ↔ ∀ pre k rest, Opens t pre k rest → Refused rest := by
  induction t with
  | nil => simp [parse, Opens]
  | cons b t ih =>
    have hlater : (∀ pre k rest, Opens (b :: t) pre k rest → Refused rest) ↔
        (b = 0x40 → ∀ k, ofKind? k t = none) ∧ parse t = none := by
      simp only [opens_cons_iff, ih, ofKind?_eq_none_iff]
      constructor
      · intro h
        exact ⟨fun hb k rest ht => h [] k rest (.inl ⟨rfl, hb, ht⟩),
          fun pre k rest hop => h (b :: pre) k rest (.inr ⟨pre, rfl, hop⟩)⟩
      · rintro ⟨hhere, hrest⟩ pre k rest (⟨-, hb, ht⟩ | ⟨u, -, hop⟩)
        · exact hhere hb k rest ht
        · exact hrest u k rest hop
    rw [hlater, parse]
    split
    · next hb =>
      simp only [Option.orElse_eq_none, hb, forall_const]
      constructor
      · rintro ⟨hreturns, hparam, hrest⟩
        exact ⟨fun k => k.casesOn hparam hreturns, hrest⟩
      · rintro ⟨hhere, hrest⟩
        exact ⟨hhere .returns, hhere .param, hrest⟩
    · next hb => simp [hb]

/-- The tag of a line stands at the first opening that is not refused. -/
theorem parse_eq_some {t : Text} {tag : DocTag} (h : parse t = some tag) :
    ∃ pre rest, Opens t pre tag.kind rest ∧ typeAndName? rest = some (tag.type, tag.name) ∧
      ∀ pre' k rest', Opens t pre' k rest' → pre'.length < pre.length → Refused rest' := by
  induction t with
  | nil => cases h
  | cons b t ih =>
    -- nothing precedes a tag that stands at the first byte
    have hfirst : ∀ k, b = 0x40 → ofKind? k t = some tag →
        ∃ pre rest, Opens (b :: t) pre tag.kind rest ∧ typeAndName? rest = some (tag.type, tag.name) ∧
          ∀ pre' k rest', Opens (b :: t) pre' k rest' → pre'.length < pre.length → Refused rest' := by
      intro k hb hk
      obtain ⟨rfl, rest, hrest, hread⟩ := ofKind?_eq_some_iff.mp hk
      exact ⟨[], rest, opens_cons_iff.mpr (.inl ⟨rfl, hb, hrest⟩), hread,
        fun _ _ _ _ hlt => absurd hlt (Nat.not_lt_zero _)⟩
    have hlater : (b = 0x40 → ∀ k, ofKind? k t = none) → parse t = some tag →
        ∃ pre rest, Opens (b :: t) pre tag.kind rest ∧ typeAndName? rest = some (tag.type, tag.name) ∧
          ∀ pre' k rest', Opens (b :: t) pre' k rest' → pre'.length < pre.length → Refused rest' := by
      intro hnone ht
      obtain ⟨pre, rest, hop, hread, hfst⟩ := ih ht
      refine ⟨b :: pre, rest, opens_cons_iff.mpr (.inr ⟨pre, rfl, hop⟩), hread, ?_⟩
      intro pre' k rest' hop' hlt
      obtain ⟨-, hb, hrest'⟩ | ⟨u, rfl, hu⟩ := opens_cons_iff.mp hop'
      · exact ofKind?_eq_none_iff.mp (hnone hb k) rest' hrest'
      · exact hfst u k rest' hu (Nat.lt_of_succ_lt_succ hlt)
    rw [parse] at h
    split at h
    · next hb =>
      simp only [Option.orElse_eq_some] at h
      obtain hreturns | ⟨hreturns, hparam | ⟨hparam, hrest⟩⟩ := h
      · exact hfirst .returns hb hreturns
      · exact hfirst .param hb hparam
      · exact hlater (fun _ k => k.casesOn hparam hreturns) hrest
    · next hb => exact hlater (fun hb' => absurd hb' hb) h

/-- **A type is captured whole exactly if it can be written in a tag.** The tag of a line stands at the
first opening that is not refused, and its type is a start of what follows there: the text up to the next
closing brace if this text is a type, and only then. -/
theorem captures_whole_iff {t : Text} {tag : DocTag} (h : parse t = some tag) :
    ∃ pre rest, Opens t pre tag.kind rest ∧ ¬Refused rest ∧
      (∀ pre' k rest', Opens t pre' k rest' → pre'.length < pre.length → Refused rest') ∧
      tag.type <+: rest ∧
      (braced? rest = some tag.type ↔ ∃ ty, braced? rest = some ty ∧ IsType ty) := by
  obtain ⟨pre, rest, hop, hread, hfirst⟩ := parse_eq_some h
  have hnot : ¬Refused rest := by
    intro href
    rw [typeAndName?_eq_none_iff.mpr href] at hread
    cases hread
  refine ⟨pre, rest, hop, hnot, hfirst, prefix_of_typeAndName? hread,
    fun hr => ⟨tag.type, hr, type_of_typeAndName? hread⟩, ?_⟩
  rintro ⟨ty, hr, hty⟩
  rwa [typeAndName?_of_braced hr hty hread]

/-- Of `Array<int>` the tag has `Arra`: the last letter in front of the bracket becomes the name. -/
theorem captures_whole_iff_generic :
    parse " * @param \x7bArray<int>\x7d xs the values" = some ⟨.param, "Arra", "y"⟩ ∧
      ∃ pre rest, Opens " * @param \x7bArray<int>\x7d xs the values" pre .param rest ∧ ¬Refused rest ∧
        (∀ pre' k rest', Opens " * @param \x7bArray<int>\x7d xs the values" pre' k rest' →
          pre'.length < pre.length → Refused rest') ∧
        ("Arra" : Text) <+: rest ∧
        (braced? rest = some ("Arra" : Text) ↔ ∃ ty, braced? rest = some ty ∧ IsType ty) := by
  have hparse : parse " * @param \x7bArray<int>\x7d xs the values" = some ⟨.param, "Arra", "y"⟩ := by
    decide
  exact ⟨hparse, captures_whole_iff hparse⟩

end StubDecl.DocTag
