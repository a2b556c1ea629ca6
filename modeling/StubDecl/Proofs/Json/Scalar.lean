import StubDecl.Json.Read
import StubDecl.Json.Text
import StubDecl.Proofs.Text.Utf8

/-!
# Reading back strings and numbers

What is written as a JSON string is read back as the repaired text (`Json.string?_string`), and what is
written as a numeral of 64 bits is read back as the number (`Json.int64?_ofInt`). The reader of strings
works by fuel; `Json.Spells` says what it reads with any fuel that is enough.
-/

namespace StubDecl.Json

/-! ## Strings -/

/-- With fuel `m` or more, the text `t` is read as the bytes `s` of a string, and `r` is left. -/
def Spells (m : Nat) (t s r : Text) : Prop := ∀ k, m ≤ k → stringBody k t = some (s, r)

theorem spells_quote (r : Text) : Spells 1 (0x22 :: r) [] r := by
  rintro (_ | k) hk
  · cases hk
  · rfl

/-- Bytes that stand for themselves. -/
def IsRaw (b : UInt8) : Prop := 0x20 ≤ b.toNat ∧ b.toNat ≠ 0x22 ∧ b.toNat ≠ 0x5c

variable {m : Nat} {t s r : Text}

theorem Spells.raw_cons (h : Spells m t s r) {b : UInt8} (hb : IsRaw b) :
    Spells (m + 1) (b :: t) (b :: s) r := by
  rintro (_ | k) hk
  · cases hk
  · obtain ⟨hlow, hquote, hslash⟩ := hb
    have hq : b ≠ 0x22 := fun e => hquote (congrArg UInt8.toNat e)
    have hs : b ≠ 0x5c := fun e => hslash (congrArg UInt8.toNat e)
    have hl : ¬ b < 0x20 := by
      rw [UInt8.lt_iff_toNat_lt]
      exact Nat.not_lt.mpr hlow
    rw [stringBody]
    · simp only [hl, hs, decide_false, Bool.or_self, Bool.false_eq_true, if_false,
        h k (Nat.le_of_succ_le_succ hk)]
      rfl
    · exact hq
    · exact fun _ e _ => hs e
    · exact fun _ _ e _ => hs e

theorem Spells.raw (h : Spells m t s r) {bs : Text} (hbs : ∀ b ∈ bs, IsRaw b) :
    Spells (m + bs.length) (bs ++ t) (bs ++ s) r := by
  induction bs with
  | nil => exact h
  | cons b bs ih =>
    obtain ⟨hb, hbs⟩ := List.forall_mem_cons.mp hbs
    exact (ih hbs).raw_cons hb

theorem Spells.short (h : Spells m t s r) {b c : UInt8} (hb : b ≠ 0x75) (hc : shortEscape? b = some c) :
    Spells (m + 1) (0x5c :: b :: t) (c :: s) r := by
  rintro (_ | k) hk
  · cases hk
  · rw [stringBody]
    · simp only [hc, h k (Nat.le_of_succ_le_succ hk)]
      rfl
    · exact hb

theorem hexValue?_hexDigit {d : Nat} (hd : d < 16) : Ascii.hexValue? (Text.hexDigit d) = some d := by
  have hall : ∀ d < 16, Ascii.hexValue? (Text.hexDigit d) = some d := by decide
  exact hall d hd

theorem hex4?_hexOfNat {n : Nat} (hn : n < 0x10000) (r : Text) :
    hex4? (Text.hexOfNat 4 n ++ r) = some (n, r) := by
  simp only [Text.hexOfNat, List.nil_append, List.cons_append, hex4?]
  rw [hexValue?_hexDigit (by omega), hexValue?_hexDigit (by omega), hexValue?_hexDigit (by omega),
    hexValue?_hexDigit (by omega)]
  simp only [Option.bind_eq_bind, Option.bind_some, Option.pure_def, Option.some.injEq, Prod.mk.injEq,
    and_true]
  omega

/-- A numeric escape of a character that needs no surrogates. -/
theorem Spells.unicode (h : Spells m t s r) {n : Nat} (hn : n < 0xd800 ∨ 0xe000 ≤ n ∧ n < 0x10000) :
    Spells (m + 1) (unicodeEscape n ++ t) (String.utf8EncodeChar (Char.ofNat n) ++ s) r := by
  rintro (_ | k) hk
  · cases hk
  · have hpair : pairUp n t = (n, t) := by
      unfold pairUp
      rw [if_pos]
      simp only [Bool.or_eq_true, decide_eq_true_eq]
      omega
    have hcons : unicodeEscape n ++ t = 0x5c :: 0x75 :: (Text.hexOfNat 4 n ++ t) := rfl
    rw [hcons, stringBody, hex4?_hexOfNat (by omega)]
    simp only [Option.bind_eq_bind, Option.bind_some, hpair, h k (Nat.le_of_succ_le_succ hk)]
    rfl

theorem Spells.mono (h : Spells m t s r) {m' : Nat} (hm : m ≤ m') : Spells m' t s r :=
  fun k hk => h k (Nat.le_trans hm hk)

/-- A character is written with a letter behind a backslash, with a number, or as it is. -/
theorem escape_cases (web : Bool) {c : Char} {bs : Text} (h : Text.Encodes bs c) :
    (∃ b x, escape web (.char c bs) = [0x5c, b] ∧ b ≠ 0x75 ∧ shortEscape? b = some x ∧ bs = [x]) ∨
      escape web (.char c bs) = unicodeEscape c.toNat ∧ c.toNat < 0xd800 ∨
      escape web (.char c bs) = bs ∧ ∀ b ∈ bs, IsRaw b := by
  have hbytes : ∀ n x, c.toNat = n → String.utf8EncodeChar (Char.ofNat n) = [x] → bs = [x] := by
    intro n x hn hx
    rw [h.eq, ← hx, ← hn, Char.ofNat_toNat]
  simp only [escape]
  split_ifs with h₁ h₂ h₃ h₄ h₅ h₆ h₇ h₈
  · exact .inl ⟨0x22, 0x22, by decide, by decide, by decide, hbytes _ _ h₁ (by decide)⟩
  · exact .inl ⟨0x5c, 0x5c, by decide, by decide, by decide, hbytes _ _ h₂ (by decide)⟩
  · exact .inl ⟨0x62, 0x08, by decide, by decide, by decide, hbytes _ _ h₃ (by decide)⟩
  · exact .inl ⟨0x66, 0x0c, by decide, by decide, by decide, hbytes _ _ h₄ (by decide)⟩
  · exact .inl ⟨0x6e, 0x0a, by decide, by decide, by decide, hbytes _ _ h₅ (by decide)⟩
  · exact .inl ⟨0x72, 0x0d, by decide, by decide, by decide, hbytes _ _ h₆ (by decide)⟩
  · exact .inl ⟨0x74, 0x09, by decide, by decide, by decide, hbytes _ _ h₇ (by decide)⟩
  · refine .inr (.inl ⟨rfl, ?_⟩)
    simp only [needsEscape, Bool.or_eq_true, Bool.and_eq_true, decide_eq_true_eq] at h₈
    omega
  · refine .inr (.inr ⟨rfl, fun b hb => ?_⟩)
    simp only [needsEscape, Bool.or_eq_true, decide_eq_true_eq, not_or] at h₈
    rw [h.eq] at hb
    have := Text.mem_utf8EncodeChar hb
    unfold IsRaw
    omega

/-- A piece of a text is read back repaired. -/
theorem Spells.escape (h : Spells m t s r) {u : Text.Unit} (hu : u.Proper) :
    Spells (m + (Json.escape true u).length) (Json.escape true u ++ t) (u.repaired.bytes ++ s) r := by
  cases u with
  | stray b =>
    have hbytes : String.utf8EncodeChar (Char.ofNat 0xfffd) = [0xef, 0xbf, 0xbd] := by decide
    have hcode := h.unicode (n := 0xfffd) (by omega)
    rw [hbytes] at hcode
    exact hcode.mono (Nat.add_le_add_left (Nat.succ_pos _) m)
  | char c bs =>
    obtain ⟨b, x, hesc, hb, hx, rfl⟩ | ⟨hesc, hc⟩ | ⟨hesc, hraw⟩ := escape_cases true hu <;> rw [hesc]
    · exact (h.short hb hx).mono (Nat.le_succ _)
    · have hcode := h.unicode (n := c.toNat) (.inl hc)
      rw [Char.ofNat_toNat, ← Text.Encodes.eq hu] at hcode
      exact hcode.mono (Nat.add_le_add_left (Nat.succ_pos _) m)
    · exact h.raw hraw

/-- A text that was written as a JSON string is read back repaired. -/
theorem string?_string (t r : Text) :
    string? (t.units.flatMap (Json.escape true) ++ 0x22 :: r) = some (t.repair, r) := by
  have hspell : ∀ us : List Text.Unit, (∀ u ∈ us, u.Proper) →
      Spells (1 + (us.flatMap (Json.escape true)).length) (us.flatMap (Json.escape true) ++ 0x22 :: r)
        (us.flatMap fun u => u.repaired.bytes) r := by
    intro us hus
    induction us with
    | nil => exact spells_quote r
    | cons u us ih =>
      obtain ⟨hu, hus⟩ := List.forall_mem_cons.mp hus
      have hstep := (ih hus).escape hu
      simp only [List.flatMap_cons, List.length_append, List.append_assoc] at hstep ⊢
      rwa [Nat.add_comm (Json.escape true u).length, ← Nat.add_assoc]
  have hbody := hspell t.units (Text.proper_of_mem_units t)
  have hrepair : (t.units.flatMap fun u => u.repaired.bytes) = t.repair := by
    rw [Text.repair_eq_ofUnits, Text.ofUnits, List.flatMap_map]
  rw [string?, hbody _ (by simp only [List.length_append, List.length_cons]; omega), hrepair]
  simp only [Option.bind_eq_bind, Option.bind_some, Option.pure_def, Text.repair_repair]

/-! ## Numerals -/

theorem ofNat_of_lt {n : Nat} (hn : n < 10) : Text.ofNat n = [(0x30 + n).toUInt8] := by
  have hall : ∀ n < 10, Text.ofNat n = [(0x30 + n).toUInt8] := by decide
  exact hall n hn

theorem ofNat_of_le {n : Nat} (hn : 10 ≤ n) :
    Text.ofNat n = Text.ofNat (n / 10) ++ Text.ofNat (n % 10) := by
  rw [Text.ofNat, Nat.toDigits_of_base_le (by omega) hn, List.map_append,
    ← Nat.toDigits_of_lt_base (Nat.mod_lt n (by omega))]
  rfl

/-- Numerals are built digit by digit. -/
theorem numeral_induction {P : Nat → Prop} (digit : ∀ n < 10, P n)
    (append : ∀ n, 10 ≤ n → P (n / 10) → P n) (n : Nat) : P n := by
  induction n using Nat.strongRecOn with
  | _ n ih =>
    by_cases hn : n < 10
    · exact digit n hn
    · exact append n (by omega) (ih (n / 10) (by omega))

/-- A numeral consists of digits. -/
theorem isDigit_of_mem_ofNat {n : Nat} {b : UInt8} (h : b ∈ Text.ofNat n) : Ascii.isDigit b = true := by
  induction n using numeral_induction with
  | digit n hn =>
    have hall : ∀ n < 10, Ascii.isDigit (0x30 + n).toUInt8 = true := by decide
    rw [ofNat_of_lt hn, List.mem_singleton] at h
    exact h ▸ hall n hn
  | append n hn ih =>
    have hall : ∀ n < 10, Ascii.isDigit (0x30 + n).toUInt8 = true := by decide
    rw [ofNat_of_le hn, ofNat_of_lt (Nat.mod_lt n (by omega)), List.mem_append, List.mem_singleton] at h
    obtain h | rfl := h
    · exact ih h
    · exact hall _ (Nat.mod_lt n (by omega))

/-- Only the numeral of zero starts with zero. -/
theorem ofNat_cons (n : Nat) : ∃ d ds, Text.ofNat n = d :: ds ∧ (d = 0x30 → n = 0) := by
  induction n using numeral_induction with
  | digit n hn =>
    have hall : ∀ n < 10, (0x30 + n).toUInt8 = 0x30 → n = 0 := by decide
    exact ⟨_, [], ofNat_of_lt hn, hall n hn⟩
  | append n hn ih =>
    obtain ⟨d, ds, hcons, hzero⟩ := ih
    refine ⟨d, ds ++ Text.ofNat (n % 10), ?_, fun hd => ?_⟩
    · rw [ofNat_of_le hn, hcons, List.cons_append]
    · have := hzero hd
      omega

/-- The number that a numeral spells. -/
theorem foldl_ofNat (n : Nat) :
    (Text.ofNat n).foldl (fun (n : Nat) b => n * 10 + (b.toNat - 48)) 0 = n := by
  have hall : ∀ n < 10, (0x30 + n).toUInt8.toNat = 48 + n := by decide
  induction n using numeral_induction with
  | digit n hn =>
    rw [ofNat_of_lt hn, List.foldl_cons, List.foldl_nil, hall n hn]
    omega
  | append n hn ih =>
    have hmod : n % 10 < 10 := Nat.mod_lt n (by omega)
    rw [ofNat_of_le hn, List.foldl_append, ih, ofNat_of_lt hmod, List.foldl_cons, List.foldl_nil,
      hall _ hmod]
    omega

theorem ofNat_all_digits (n : Nat) :
    (!(Text.ofNat n).isEmpty && (Text.ofNat n).all Ascii.isDigit) = true := by
  obtain ⟨d, ds, hcons, -⟩ := ofNat_cons n
  rw [Bool.and_eq_true, List.all_eq_true]
  refine ⟨?_, fun b => isDigit_of_mem_ofNat⟩
  rw [hcons]
  rfl

theorem ofNat_ne_minus (n : Nat) (t : Text) : Text.ofNat n ≠ 0x2d :: t := by
  intro h
  have hdigit : Ascii.isDigit 0x2d = true := isDigit_of_mem_ofNat (n := n) (h ▸ List.mem_cons_self)
  cases hdigit

/-- A number of 64 bits is read back from its numeral. -/
theorem int64?_ofInt (n : Int64) : int64? (Text.ofInt n.toInt) = some n := by
  have hlow := n.le_toInt
  have hhigh := n.toInt_lt
  have hback := Int64.ofInt_toInt n
  cases hn : n.toInt with
  | ofNat k =>
    rw [hn] at hlow hhigh hback
    have hk : k < Word.half := by
      rw [Int.ofNat_eq_natCast] at hhigh
      simp only [Word.half]
      omega
    rw [Text.ofInt]
    unfold int64?
    split
    · next ds hds => exact absurd hds (ofNat_ne_minus k ds)
    · simp only [ofNat_all_digits, if_true, Option.bind_some, foldl_ofNat, if_pos hk]
      exact congrArg some hback
  | negSucc k =>
    rw [hn] at hlow hhigh hback
    have hk : k + 1 ≤ Word.half := by
      simp only [Word.half]
      omega
    simp only [Text.ofInt, int64?, ofNat_all_digits, if_true, Option.bind_some, foldl_ofNat, if_pos hk]
    exact congrArg some hback

/-! ## Values -/

/-- What stands behind a value inside an object. -/
def Follows (r : Text) : Prop := ∃ t, r = 0x2c :: t ∨ r = 0x7d :: t

/-- The text `v` is read as the value `x` inside an object. -/
def Writes (v : Text) (x : Scalar) : Prop :=
  ∀ k depth r, Follows r → value? (k + 1) depth (v ++ r) = some (x, r)

theorem writes_string (t : Text) : Writes (string t) (.string t.repair) := by
  intro k depth r _
  have hcons : string t ++ r = 0x22 :: (t.units.flatMap (escape true) ++ 0x22 :: r) := by
    simp [string]
  have hskip : skipBlanks (0x22 :: (t.units.flatMap (escape true) ++ 0x22 :: r)) =
      0x22 :: (t.units.flatMap (escape true) ++ 0x22 :: r) := rfl
  rw [hcons, value?, hskip]
  simp only [string?_string, Option.map_some]

theorem digits?_append {ds r : Text} (hne : ds ≠ []) (hds : ∀ b ∈ ds, Ascii.isDigit b = true)
    (hr : Follows r) : digits? (ds ++ r) = some (ds, r) := by
  have htake : (ds ++ r).takeWhile Ascii.isDigit = ds := by
    rw [List.takeWhile_append_of_pos hds]
    obtain ⟨t, rfl | rfl⟩ := hr <;> rw [List.takeWhile_cons_of_neg (by decide), List.append_nil]
  have hdrop : (ds ++ r).dropWhile Ascii.isDigit = r := by
    rw [List.dropWhile_append_of_pos hds]
    obtain ⟨t, rfl | rfl⟩ := hr <;> rw [List.dropWhile_cons_of_neg (by decide)]
  have hnil : ds.isEmpty = false := List.isEmpty_eq_false_iff.mpr hne
  simp only [digits?, htake, hdrop, hnil, Bool.false_eq_true, if_false]

/-- A numeral is read up to what may follow it, with or without a sign. -/
theorem numeral?_ofNat (n : Nat) {r : Text} (hr : Follows r) :
    numeral? (Text.ofNat n ++ r) = some (Text.ofNat n, r) ∧
      numeral? (0x2d :: Text.ofNat n ++ r) = some (0x2d :: Text.ofNat n, r) := by
  obtain ⟨d, ds, hcons, hzero⟩ := ofNat_cons n
  by_cases hd : d = 0x30
  · rw [hzero hd]
    obtain ⟨t, rfl | rfl⟩ := hr <;> exact ⟨rfl, rfl⟩
  · have hdigits := digits?_append (hcons ▸ List.cons_ne_nil d ds)
      (fun b => isDigit_of_mem_ofNat (n := n)) hr
    have hminus : d ≠ 0x2d := by
      rintro rfl
      exact ofNat_ne_minus n ds hcons
    rw [hcons] at hdigits ⊢
    obtain ⟨t, rfl | rfl⟩ := hr <;> simp only [List.cons_append] at hdigits ⊢ <;>
      simp [numeral?, hd, hminus, hdigits]

theorem numeral?_ofInt (n : Int) {r : Text} (hr : Follows r) :
    numeral? (Text.ofInt n ++ r) = some (Text.ofInt n, r) := by
  cases n with
  | ofNat k => exact (numeral?_ofNat k hr).1
  | negSucc k => exact (numeral?_ofNat (k + 1) hr).2

/-- A value that starts like a numeral is one. -/
theorem value?_number {b : UInt8} (hb : Ascii.isDigit b = true ∨ b = 0x2d) (k depth : Nat) (t : Text) :
    value? (k + 1) depth (b :: t) = (numeral? (b :: t)).map fun (n, r) => (.number n, r) := by
  have hne : ∀ x : UInt8, x.toNat < 0x2d ∨ 0x39 < x.toNat → b ≠ x := by
    rintro x hx rfl
    simp only [Ascii.isDigit, Bool.and_eq_true, decide_eq_true_eq, UInt8.le_iff_toNat_le,
      UInt8.reduceToNat, ← UInt8.toNat_inj] at hb
    omega
  have hskip : skipBlanks (b :: t) = b :: t := by
    simp [skipBlanks, hne 0x20, hne 0x09, hne 0x0a, hne 0x0d]
  have hdrop : ∀ (x : UInt8) (word : Text), x.toNat < 0x2d ∨ 0x39 < x.toNat →
      Text.dropPrefix? (b :: t) (x :: word) = none := by
    intro x word hx
    rw [Text.dropPrefix?, if_neg (hne x hx)]
  have hnull : Text.dropPrefix? (b :: t) "null" = none := hdrop 0x6e _ (by decide)
  have htrue : Text.dropPrefix? (b :: t) "true" = none := hdrop 0x74 _ (by decide)
  have hfalse : Text.dropPrefix? (b :: t) "false" = none := hdrop 0x66 _ (by decide)
  rw [value?, hskip]
  split
  · next h => cases h
  · next r h => exact absurd (List.cons.inj h).1 (hne 0x22 (by decide))
  · next r h => exact absurd (List.cons.inj h).1 (hne 0x5b (by decide))
  · next r h => exact absurd (List.cons.inj h).1 (hne 0x7b (by decide))
  · next c r _ _ _ h =>
    obtain ⟨rfl, rfl⟩ := List.cons.inj h
    simp only [hnull, htrue, hfalse]

theorem writes_number (n : Int) : Writes (Text.ofInt n) (.number (Text.ofInt n)) := by
  intro k depth r hr
  have hread := numeral?_ofInt n hr
  obtain ⟨b, t, hcons, hb⟩ : ∃ b t, Text.ofInt n = b :: t ∧ (Ascii.isDigit b = true ∨ b = 0x2d) := by
    cases n with
    | ofNat k =>
      obtain ⟨d, ds, hcons, -⟩ := ofNat_cons k
      exact ⟨d, ds, hcons, .inl (isDigit_of_mem_ofNat (n := k) (hcons ▸ List.mem_cons_self))⟩
    | negSucc k => exact ⟨0x2d, _, rfl, .inr rfl⟩
  rw [hcons, List.cons_append] at hread ⊢
  rw [value?_number hb, hread, Option.map_some]

end StubDecl.Json
