import Mathlib.Tactic.Common
import StubDecl.Text.Utf8

/-!
# Cutting texts into characters

A character is written in one way only, the one of `String.utf8EncodeChar` (`Text.Encodes.eq`), and it
is found again in front of whatever follows it (`Text.units_append_of_encodes`). So a text and its
repaired form have the same pieces but for stray bytes (`Text.units_repair`), and repairing twice is
repairing once. A text can be cut in front of a byte that is never inside a character
(`Text.units_append_first`), as the bytes of ASCII are (`Text.units_append_ascii`).
-/

namespace StubDecl.Text

/-! ## Characters -/

/-- The bytes `bs` are those of the character `c`. -/
def Encodes (bs : Text) (c : Char) : Prop := ∃ b t, bs = b :: t ∧ charAt? b t = some (c, t.length)

/-- The table of lead bytes by their numbers. -/
theorem lead?_eq (b : UInt8) : lead? b =
    if b.toNat < 0x80 then some (0, 0x80, 0xbf, b.toNat)
    else if b.toNat < 0xc2 ∨ 0xf4 < b.toNat then none
    else some (if b.toNat < 0xe0 then 1 else if b.toNat < 0xf0 then 2 else 3,
      if b.toNat = 0xe0 then 0xa0 else if b.toNat = 0xf0 then 0x90 else 0x80,
      if b.toNat = 0xed then 0x9f else if b.toNat = 0xf4 then 0x8f else 0xbf,
      b.toNat - if b.toNat < 0xe0 then 0xc0 else if b.toNat < 0xf0 then 0xe0 else 0xf0) := by
  obtain ⟨k, rfl⟩ : ∃ k : Fin 256, b = UInt8.ofNat k.val :=
    ⟨⟨b.toNat, b.toNat_lt⟩, UInt8.ofNat_toNat.symm⟩
  revert k
  decide +kernel

/-- What a lead byte promises, case by case of how many bytes follow it. -/
theorem lead?_cases {b lo hi : UInt8} {n bits : Nat} (h : lead? b = some (n, lo, hi, bits)) :
    0x80 ≤ lo.toNat ∧ hi.toNat ≤ 0xbf ∧
      (n = 0 ∧ b.toNat < 0x80 ∧ bits = b.toNat ∨
        n = 1 ∧ 0xc2 ≤ b.toNat ∧ b.toNat < 0xe0 ∧ bits = b.toNat - 0xc0 ∨
        n = 2 ∧ 0xe0 ≤ b.toNat ∧ b.toNat < 0xf0 ∧ bits = b.toNat - 0xe0 ∧
          (b.toNat = 0xe0 → lo.toNat = 0xa0) ∧ (b.toNat = 0xed → hi.toNat = 0x9f) ∨
        n = 3 ∧ 0xf0 ≤ b.toNat ∧ b.toNat < 0xf5 ∧ bits = b.toNat - 0xf0 ∧
          (b.toNat = 0xf0 → lo.toNat = 0x90) ∧ (b.toNat = 0xf4 → hi.toNat = 0x8f)) := by
  rw [lead?_eq] at h
  split at h
  · cases h
    grind
  · split at h
    · cases h
    · simp only [Option.some.injEq, Prod.mk.injEq] at h
      obtain ⟨rfl, rfl, rfl, rfl⟩ := h
      simp only [apply_ite UInt8.toNat, UInt8.reduceToNat]
      refine ⟨?_, ?_, ?_⟩ <;> grind

theorem tail?_succ {n acc v : Nat} {lo hi : UInt8} {t : Text} (h : tail? (n + 1) lo hi acc t = some v) :
    ∃ x r, t = x :: r ∧ lo.toNat ≤ x.toNat ∧ x.toNat ≤ hi.toNat ∧
      tail? n 0x80 0xbf (acc * 64 + (x.toNat - 0x80)) r = some v := by
  cases t with
  | nil => cases h
  | cons x r =>
    simp only [tail?] at h
    split at h
    · next hx =>
      simp only [Bool.and_eq_true, decide_eq_true_eq, UInt8.le_iff_toNat_le] at hx
      exact ⟨x, r, rfl, hx.1, hx.2, h⟩
    · cases h

theorem charAt?_eq_some {b : UInt8} {t : Text} {c : Char} {n : Nat} (h : charAt? b t = some (c, n)) :
    ∃ lo hi bits v, lead? b = some (n, lo, hi, bits) ∧ tail? n lo hi bits t = some v ∧
      c = Char.ofNat v := by
  obtain ⟨⟨m, lo, hi, bits⟩, hlead, h⟩ := Option.bind_eq_some_iff.mp h
  obtain ⟨v, htail, h⟩ := Option.map_eq_some_iff.mp h
  obtain ⟨rfl, rfl⟩ := Prod.mk.inj h
  exact ⟨lo, hi, bits, v, hlead, htail, rfl⟩

theorem toNat_ofNat {v : Nat} (h : v < 0xd800 ∨ 0xdfff < v ∧ v < 0x110000) :
    (Char.ofNat v).val.toNat = v := by
  have hv : v.isValidChar := h
  rw [Char.ofNat, dif_pos hv]
  rfl

/-- A character is written in one way only. -/
theorem Encodes.eq {bs : Text} {c : Char} (h : Encodes bs c) : bs = String.utf8EncodeChar c := by
  obtain ⟨b, t, rfl, h⟩ := h
  obtain ⟨lo, hi, bits, v, hlead, htail, rfl⟩ := charAt?_eq_some h
  obtain ⟨hlo, hhi, hcase⟩ := lead?_cases hlead
  obtain ⟨hn, hb, hbits⟩ | ⟨hn, hb, hb', hbits⟩ | ⟨hn, hb, hb', hbits, he, hd⟩ |
    ⟨hn, hb, hb', hbits, he, hd⟩ := hcase <;> rw [hn, hbits] at htail
  · obtain rfl := List.length_eq_zero_iff.mp hn
    obtain rfl : b.toNat = v := Option.some.inj htail
    have hv : (Char.ofNat b.toNat).val.toNat = b.toNat := toNat_ofNat (by omega)
    simp only [String.utf8EncodeChar, hv]
    rw [if_pos (by omega), UInt8.ofNat_toNat]
  · obtain ⟨x, r, rfl, hx, hx', htail⟩ := tail?_succ htail
    obtain rfl := List.length_eq_zero_iff.mp (Nat.succ.inj hn)
    have hval : (b.toNat - 0xc0) * 64 + (x.toNat - 0x80) = v := Option.some.inj htail
    have hv : (Char.ofNat v).val.toNat = v := toNat_ofNat (by omega)
    simp only [String.utf8EncodeChar, hv]
    rw [if_neg (by omega), if_pos (by omega)]
    simp only [List.cons.injEq, and_true, ← UInt8.toNat_inj, UInt8.toNat_ofNat']
    omega
  · obtain ⟨x, r, rfl, hx, hx', htail⟩ := tail?_succ htail
    obtain ⟨y, r, rfl, hy, hy', htail⟩ := tail?_succ htail
    obtain rfl := List.length_eq_zero_iff.mp (Nat.succ.inj (Nat.succ.inj hn))
    have hval : ((b.toNat - 0xe0) * 64 + (x.toNat - 0x80)) * 64 + (y.toNat - 0x80) = v :=
      Option.some.inj htail
    simp only [UInt8.reduceToNat] at hy hy'
    have hlow : 0x800 ≤ v := by omega
    have hv : (Char.ofNat v).val.toNat = v := toNat_ofNat (by omega)
    simp only [String.utf8EncodeChar, hv]
    rw [if_neg (by omega), if_neg (by omega), if_pos (by omega)]
    simp only [List.cons.injEq, and_true, ← UInt8.toNat_inj, UInt8.toNat_ofNat']
    omega
  · obtain ⟨x, r, rfl, hx, hx', htail⟩ := tail?_succ htail
    obtain ⟨y, r, rfl, hy, hy', htail⟩ := tail?_succ htail
    obtain ⟨z, r, rfl, hz, hz', htail⟩ := tail?_succ htail
    obtain rfl := List.length_eq_zero_iff.mp (Nat.succ.inj (Nat.succ.inj (Nat.succ.inj hn)))
    have hval : (((b.toNat - 0xf0) * 64 + (x.toNat - 0x80)) * 64 + (y.toNat - 0x80)) * 64 +
        (z.toNat - 0x80) = v := Option.some.inj htail
    simp only [UInt8.reduceToNat] at hy hy' hz hz'
    have hlow : 0x10000 ≤ v := by omega
    have hv : (Char.ofNat v).val.toNat = v := toNat_ofNat (by omega)
    simp only [String.utf8EncodeChar, hv]
    rw [if_neg (by omega), if_neg (by omega), if_neg (by omega)]
    simp only [List.cons.injEq, and_true, ← UInt8.toNat_inj, UInt8.toNat_ofNat']
    omega

/-- Only a character of ASCII is written with bytes of ASCII. -/
theorem mem_utf8EncodeChar {c : Char} {x : UInt8} (h : x ∈ String.utf8EncodeChar c) :
    x.toNat = c.toNat ∧ c.toNat < 0x80 ∨ 0x80 ≤ x.toNat ∧ 0x80 ≤ c.toNat := by
  simp only [String.utf8EncodeChar, Char.toNat_val] at h
  split_ifs at h <;>
    simp only [List.mem_cons, List.not_mem_nil, or_false, ← UInt8.toNat_inj, UInt8.toNat_ofNat'] at h <;>
    omega

/-- Only the promised bytes are looked at, and they are there. -/
theorem tail?_append {n acc v : Nat} {lo hi : UInt8} {t : Text} (h : tail? n lo hi acc t = some v)
    (u : Text) : n ≤ t.length ∧ tail? n lo hi acc (t.take n ++ u) = some v := by
  induction n generalizing lo hi acc t with
  | zero => exact ⟨Nat.zero_le _, h⟩
  | succ n ih =>
    obtain ⟨x, r, rfl, hlo, hhi, htail⟩ := tail?_succ h
    obtain ⟨hle, happ⟩ := ih htail
    refine ⟨Nat.succ_le_succ hle, ?_⟩
    have hx : (lo ≤ x && x ≤ hi) = true := by
      simp only [Bool.and_eq_true, decide_eq_true_eq, UInt8.le_iff_toNat_le]
      exact ⟨hlo, hhi⟩
    rw [List.take_succ_cons, List.cons_append, tail?, if_pos hx]
    exact happ

theorem charAt?_append {b : UInt8} {t : Text} {c : Char} {n : Nat} (h : charAt? b t = some (c, n))
    (u : Text) : n ≤ t.length ∧ charAt? b (t.take n ++ u) = some (c, n) := by
  obtain ⟨lo, hi, bits, v, hlead, htail, rfl⟩ := charAt?_eq_some h
  obtain ⟨hle, happ⟩ := tail?_append htail u
  refine ⟨hle, ?_⟩
  simp only [charAt?, hlead, Option.bind_some, happ, Option.map_some]

/-- The character that a text starts with. -/
theorem encodes_of_charAt? {b : UInt8} {t : Text} {c : Char} {n : Nat}
    (h : charAt? b t = some (c, n)) : Encodes (b :: t.take n) c := by
  obtain ⟨hle, happ⟩ := charAt?_append h []
  refine ⟨b, t.take n, rfl, ?_⟩
  rw [List.append_nil] at happ
  rw [happ, List.length_take, Nat.min_eq_left hle]

/-! ## Pieces -/

theorem unitsFrom_eq (k : Nat) (t : Text) : unitsFrom k t = units (t.drop k) := by
  induction t generalizing k with
  | nil => simp [units, unitsFrom]
  | cons b t ih =>
    cases k with
    | zero => rfl
    | succ k =>
      rw [unitsFrom, ih]
      rfl

theorem units_cons_of_some {b : UInt8} {t : Text} {c : Char} {n : Nat} (h : charAt? b t = some (c, n)) :
    units (b :: t) = .char c (b :: t.take n) :: units (t.drop n) := by
  rw [units, unitsFrom, h]
  simp only [unitsFrom_eq]

theorem units_cons_of_none {b : UInt8} {t : Text} (h : charAt? b t = none) :
    units (b :: t) = .stray b :: units t := by
  rw [units, unitsFrom, h]
  rfl

/-- A character is found again in front of any text. -/
theorem units_append_of_encodes {bs : Text} {c : Char} (h : Encodes bs c) (t : Text) :
    units (bs ++ t) = .char c bs :: units t := by
  obtain ⟨b, r, rfl, h⟩ := h
  obtain ⟨-, happ⟩ := charAt?_append h t
  rw [List.take_length] at happ
  rw [List.cons_append, units_cons_of_some happ, List.take_left, List.drop_left]

/-- A piece that can come from a text: the bytes of a character are those of the character. -/
def Unit.Proper : Unit → Prop
  | .char c bs => Encodes bs c
  | .stray _ => True

/-- A text is its first piece and the rest. -/
theorem units_induction {P : Text → Prop} (nil : P [])
    (char : ∀ bs c t, Encodes bs c → P t → P (bs ++ t))
    (stray : ∀ b t, charAt? b t = none → P t → P (b :: t)) (t : Text) : P t := by
  induction h : t.length using Nat.strongRecOn generalizing t with
  | _ n ih =>
    subst h
    cases t with
    | nil => exact nil
    | cons b t =>
      cases hc : charAt? b t with
      | none => exact stray b t hc (ih _ (Nat.lt_succ_self _) t rfl)
      | some r =>
        obtain ⟨c, n⟩ := r
        have happ := char (b :: t.take n) c (t.drop n) (encodes_of_charAt? hc)
          (ih _ (by simp only [List.length_drop, List.length_cons]; omega) _ rfl)
        rwa [List.cons_append, List.take_append_drop] at happ

theorem proper_of_mem_units (t : Text) : ∀ u ∈ units t, u.Proper := by
  induction t using units_induction with
  | nil => nofun
  | char bs c t hc ih =>
    rw [units_append_of_encodes hc]
    exact List.forall_mem_cons.mpr ⟨hc, ih⟩
  | stray b t hb ih =>
    rw [units_cons_of_none hb]
    exact List.forall_mem_cons.mpr ⟨trivial, ih⟩

/-! ## Where a text can be cut -/

/-- A byte that stands inside no character: one of ASCII, or one that may start a longer sequence. -/
def IsFirst (b : UInt8) : Prop := b.toNat < 0x80 ∨ 0xbf < b.toNat

/-- The bytes that a lead byte promises do not reach over the first byte of another character. -/
theorem le_length_of_tail? {n acc v : Nat} {lo hi b : UInt8} {t u : Text} (hb : IsFirst b)
    (hlo : 0x80 ≤ lo.toNat) (hhi : hi.toNat ≤ 0xbf) (h : tail? n lo hi acc (t ++ b :: u) = some v) :
    n ≤ t.length := by
  induction n generalizing lo hi acc t with
  | zero => exact Nat.zero_le _
  | succ n ih =>
    obtain ⟨x, r, hcons, hx, hx', htail⟩ := tail?_succ h
    cases t with
    | nil =>
      obtain ⟨rfl, -⟩ := List.cons.inj hcons
      obtain hb | hb := hb <;> omega
    | cons y t =>
      obtain ⟨-, rfl⟩ := List.cons.inj hcons
      exact Nat.succ_le_succ (ih (by decide) (by decide) htail)

theorem charAt?_append_first {b x : UInt8} {t : Text} (hb : IsFirst b) (h : charAt? x t = none)
    (u : Text) : charAt? x (t ++ b :: u) = none := by
  cases hc : charAt? x (t ++ b :: u) with
  | none => rfl
  | some r =>
    obtain ⟨c, n⟩ := r
    obtain ⟨lo, hi, bits, v, hlead, htail, -⟩ := charAt?_eq_some hc
    obtain ⟨hlo, hhi, -⟩ := lead?_cases hlead
    have hle : n ≤ t.length := le_length_of_tail? hb hlo hhi htail
    obtain ⟨-, happ⟩ := charAt?_append hc (t.drop n)
    rw [List.take_append_of_le_length hle, List.take_append_drop, h] at happ
    cases happ

/-- A text can be cut in front of a byte that stands inside no character. -/
theorem units_append_first {b : UInt8} (hb : IsFirst b) (t u : Text) :
    units (t ++ b :: u) = units t ++ units (b :: u) := by
  induction t using units_induction with
  | nil => rfl
  | char bs c t hc ih =>
    rw [List.append_assoc, units_append_of_encodes hc, units_append_of_encodes hc, ih]
    rfl
  | stray x t hx ih =>
    rw [List.cons_append, units_cons_of_none (charAt?_append_first hb hx u), units_cons_of_none hx, ih]
    rfl

theorem isFirst_of_charAt? {b : UInt8} {t : Text} {c : Char} {n : Nat}
    (h : charAt? b t = some (c, n)) : IsFirst b := by
  obtain ⟨lo, hi, bits, v, hlead, -⟩ := charAt?_eq_some h
  obtain ⟨-, -, hcase⟩ := lead?_cases hlead
  unfold IsFirst
  omega

/-- A text can be cut in front of characters. -/
theorem units_append_of_chars {w : Text} (h : ∀ u ∈ units w, ∃ c bs, u = .char c bs) (t : Text) :
    units (t ++ w) = units t ++ units w := by
  cases w with
  | nil => simp [units, unitsFrom]
  | cons b w =>
    cases hc : charAt? b w with
    | some r => exact units_append_first (isFirst_of_charAt? hc) t w
    | none =>
      rw [units_cons_of_none hc] at h
      obtain ⟨c, bs, hu⟩ := h _ List.mem_cons_self
      cases hu

/-! ## Bytes of ASCII -/

theorem encodes_ascii {b : UInt8} (hb : b.toNat < 0x80) : Encodes [b] (Char.ofNat b.toNat) := by
  refine ⟨b, [], rfl, ?_⟩
  have hlt : b < 0x80 := UInt8.lt_iff_toNat_lt.mpr hb
  simp only [charAt?, lead?, if_pos hlt, Option.bind_some, tail?, Option.map_some, List.length_nil]

/-- A text can be cut at a byte of ASCII. -/
theorem units_append_ascii {b : UInt8} (hb : b.toNat < 0x80) (t u : Text) :
    units (t ++ b :: u) = units t ++ .char (Char.ofNat b.toNat) [b] :: units u := by
  rw [units_append_first (.inl hb), ← units_append_of_encodes (encodes_ascii hb) u]
  rfl

/-! ## Writing characters -/

/-- A byte within the bounds is taken. -/
theorem tail?_cons {n acc : Nat} {lo hi b : UInt8} (hlo : lo.toNat ≤ b.toNat) (hhi : b.toNat ≤ hi.toNat)
    (t : Text) : tail? (n + 1) lo hi acc (b :: t) = tail? n 0x80 0xbf (acc * 64 + (b.toNat - 0x80)) t := by
  have hb : (lo ≤ b && b ≤ hi) = true := by
    simp only [Bool.and_eq_true, decide_eq_true_eq, UInt8.le_iff_toNat_le]
    exact ⟨hlo, hhi⟩
  rw [tail?, if_pos hb]

/-- The lead bytes of longer characters, and the bounds that they set for the byte after them. -/
theorem exists_lead? {k : Nat} (hle : 0xc2 ≤ k) (hlt : k < 0xf5) :
    ∃ n lo hi bits, lead? (UInt8.ofNat k) = some (n, lo, hi, bits) ∧
      n = (if k < 0xe0 then 1 else if k < 0xf0 then 2 else 3) ∧
      bits = k - (if k < 0xe0 then 0xc0 else if k < 0xf0 then 0xe0 else 0xf0) ∧
      lo.toNat = (if k = 0xe0 then 0xa0 else if k = 0xf0 then 0x90 else 0x80) ∧
      hi.toNat = (if k = 0xed then 0x9f else if k = 0xf4 then 0x8f else 0xbf) := by
  have hk : (UInt8.ofNat k).toNat = k := UInt8.toNat_ofNat_of_lt' (by change _ < 0x100; omega)
  rw [lead?_eq, hk, if_neg (by omega), if_neg (by omega)]
  refine ⟨_, _, _, _, rfl, rfl, rfl, ?_, ?_⟩ <;> simp only [apply_ite UInt8.toNat, UInt8.reduceToNat]

theorem encodes_cons {b lo hi : UInt8} {t : Text} {n bits : Nat} {c : Char}
    (hlead : lead? b = some (n, lo, hi, bits)) (hn : n = t.length)
    (htail : tail? n lo hi bits t = some c.toNat) : Encodes (b :: t) c := by
  subst hn
  refine ⟨b, t, rfl, ?_⟩
  simp only [charAt?, hlead, Option.bind_some, htail, Option.map_some, Char.ofNat_toNat]

/-- Every character is found in what it is written as. -/
theorem encodes_utf8EncodeChar (c : Char) : Encodes (String.utf8EncodeChar c) c := by
  have hvalid : c.toNat < 0xd800 ∨ 0xdfff < c.toNat ∧ c.toNat < 0x110000 := c.valid
  have hcont : ∀ n, (UInt8.ofNat (n % 64 + 128)).toNat = n % 64 + 128 :=
    fun n => UInt8.toNat_ofNat_of_lt' (by change _ < 0x100; omega)
  simp only [String.utf8EncodeChar, Char.toNat_val]
  split_ifs with h1 h2 h3
  · have hb : (UInt8.ofNat c.toNat).toNat = c.toNat :=
      UInt8.toNat_ofNat_of_lt' (by change _ < 0x100; omega)
    have hascii := encodes_ascii (b := UInt8.ofNat c.toNat) (by omega)
    rwa [hb, Char.ofNat_toNat] at hascii
  · obtain ⟨n, lo, hi, bits, hlead, hn, hbits, hlo, hhi⟩ :=
      exists_lead? (k := c.toNat / 64 % 32 + 192) (by omega) (by omega)
    obtain ⟨rfl, rfl⟩ : n = 1 ∧ bits = c.toNat / 64 := by grind
    refine encodes_cons hlead rfl ?_
    rw [tail?_cons (by grind) (by grind), tail?, hcont]
    exact congrArg some (by omega)
  · obtain ⟨n, lo, hi, bits, hlead, hn, hbits, hlo, hhi⟩ :=
      exists_lead? (k := c.toNat / 4096 % 16 + 224) (by omega) (by omega)
    obtain ⟨rfl, rfl⟩ : n = 2 ∧ bits = c.toNat / 4096 := by grind
    refine encodes_cons hlead rfl ?_
    rw [tail?_cons (by grind) (by grind), tail?_cons (by grind) (by grind), tail?, hcont, hcont]
    exact congrArg some (by omega)
  · obtain ⟨n, lo, hi, bits, hlead, hn, hbits, hlo, hhi⟩ :=
      exists_lead? (k := c.toNat / 262144 % 8 + 240) (by omega) (by omega)
    obtain ⟨rfl, rfl⟩ : n = 3 ∧ bits = c.toNat / 262144 := by grind
    refine encodes_cons hlead rfl ?_
    rw [tail?_cons (by grind) (by grind), tail?_cons (by grind) (by grind),
      tail?_cons (by grind) (by grind), tail?, hcont, hcont, hcont]
    exact congrArg some (by omega)

/-! ## Repairing -/

/-- A piece of a repaired text. -/
def Unit.repaired : Unit → Unit
  | .char c bs => .char c bs
  | .stray _ => .char '\ufffd' [0xef, 0xbf, 0xbd]

theorem encodes_replacement : Encodes [0xef, 0xbf, 0xbd] '\ufffd' :=
  ⟨0xef, [0xbf, 0xbd], rfl, by decide⟩

theorem repair_eq_ofUnits (t : Text) : repair t = ofUnits ((units t).map Unit.repaired) := by
  rw [repair, ofUnits, List.flatMap_map]
  congr 1
  funext u
  cases u <;> rfl

theorem Unit.Proper.encodes_repaired {u : Unit} (h : u.Proper) :
    ∃ c bs, u.repaired = .char c bs ∧ Encodes bs c := by
  cases u with
  | char c bs => exact ⟨c, bs, rfl, h⟩
  | stray b => exact ⟨_, _, rfl, encodes_replacement⟩

/-- Repairing replaces the stray bytes among the pieces and nothing else. -/
theorem units_repair (t : Text) : units (repair t) = (units t).map Unit.repaired := by
  have hproper := proper_of_mem_units t
  rw [repair_eq_ofUnits]
  generalize units t = us at hproper
  induction us with
  | nil => rfl
  | cons u us ih =>
    obtain ⟨hu, hus⟩ := List.forall_mem_cons.mp hproper
    obtain ⟨c, bs, hrep, henc⟩ := hu.encodes_repaired
    rw [List.map_cons, hrep, ofUnits, List.flatMap_cons, Unit.bytes, units_append_of_encodes henc]
    exact congrArg _ (ih hus)

theorem isUtf8_iff (t : Text) : isUtf8 t = true ↔ (units t).map Unit.repaired = units t := by
  rw [isUtf8, List.all_eq_true]
  refine ⟨fun h => ?_, fun h u hu => ?_⟩
  · rw [List.map_congr_left (g := id), List.map_id]
    intro u hu
    cases u with
    | char c bs => rfl
    | stray b => cases h _ hu
  · rw [← h] at hu
    obtain ⟨v, -, rfl⟩ := List.mem_map.mp hu
    cases v <;> rfl

/-- Well-formed texts are those that need no repair. -/
theorem repair_eq_self_iff (t : Text) : repair t = t ↔ isUtf8 t = true := by
  rw [isUtf8_iff]
  refine ⟨fun h => ?_, fun h => ?_⟩
  · rw [← units_repair, h]
  · rw [repair_eq_ofUnits, h, ofUnits_units]

@[simp] theorem isUtf8_repair (t : Text) : isUtf8 (repair t) = true := by
  rw [isUtf8_iff, units_repair, List.map_map]
  refine List.map_congr_left fun u _ => ?_
  cases u <;> rfl

@[simp] theorem repair_repair (t : Text) : repair (repair t) = repair t :=
  (repair_eq_self_iff _).mpr (isUtf8_repair t)

theorem isUtf8_of_ascii {t : Text} (h : ∀ b ∈ t, b.toNat < 0x80) : isUtf8 t = true := by
  induction t with
  | nil => rfl
  | cons b t ih =>
    obtain ⟨hb, ht⟩ := List.forall_mem_cons.mp h
    have hcut := units_append_of_encodes (encodes_ascii hb) t
    rw [isUtf8, ← List.singleton_append, hcut, List.all_cons]
    exact ih ht

/-- A text and its repaired form go on to differ, whatever is appended to them, once they differ up to
a byte of ASCII. -/
theorem isUtf8_of_append_eq {b : UInt8} (hb : b.toNat < 0x80) {t u v : Text}
    (h : repair (t ++ [b]) ++ u = t ++ [b] ++ v) : isUtf8 (t ++ [b]) = true := by
  have hcut := units_append_ascii hb t []
  have hright : units (t ++ [b] ++ v) = units (t ++ [b]) ++ units v := by
    rw [List.append_assoc, List.singleton_append, units_append_ascii hb, hcut, List.append_assoc]
    rfl
  have hend : repair (t ++ [b]) = repair t ++ [b] := by
    rw [repair_eq_ofUnits, hcut, List.map_append, ofUnits, List.flatMap_append, ← ofUnits,
      ← repair_eq_ofUnits]
    rfl
  have hleft : units (repair (t ++ [b]) ++ u) = (units (t ++ [b])).map Unit.repaired ++ units u := by
    rw [hend, List.append_assoc, List.singleton_append, units_append_ascii hb, units_repair, hcut,
      List.map_append, List.append_assoc]
    rfl
  have heq : (units (t ++ [b])).map Unit.repaired ++ units u = units (t ++ [b]) ++ units v := by
    rw [← hleft, h, hright]
  exact (isUtf8_iff _).mpr (List.append_inj heq (List.length_map _)).1

end StubDecl.Text
