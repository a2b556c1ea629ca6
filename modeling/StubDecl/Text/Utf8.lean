import StubDecl.Text.Basic

/-!
# Characters of a text

`Text.units` cuts a text into well-formed UTF-8 characters and stray bytes. A stray byte is a byte
at which no well-formed sequence starts; it stands for itself.

* `Text.ofUnits_units`: cutting loses nothing;
* `Text.repair`: every stray byte becomes the replacement character U+FFFD.
-/

namespace StubDecl

/-- A piece of a text: a character, or a byte that belongs to none. -/
inductive Text.Unit where
  | char (c : Char) (bytes : Text)
  | stray (b : UInt8)
  deriving DecidableEq, Repr

namespace Text

/-- The bytes of a piece. -/
def Unit.bytes : Unit → Text
  | .char _ bs => bs
  | .stray b => [b]

/-- The character of a piece, a stray byte counting as U+FFFD. -/
def Unit.toChar : Unit → Char
  | .char c _ => c
  | .stray _ => '\ufffd'

/-- What a lead byte promises: the number of bytes after it, the bounds of the second byte, and
the bits that the lead byte carries itself. -/
def lead? (b : UInt8) : Option (Nat × UInt8 × UInt8 × Nat) :=
  if b < 0x80 then some (0, 0x80, 0xbf, b.toNat)
  else if b < 0xc2 then none
  else if b < 0xe0 then some (1, 0x80, 0xbf, b.toNat - 0xc0)
  else if b = 0xe0 then some (2, 0xa0, 0xbf, 0)
  else if b = 0xed then some (2, 0x80, 0x9f, 0xd)
  else if b < 0xf0 then some (2, 0x80, 0xbf, b.toNat - 0xe0)
  else if b = 0xf0 then some (3, 0x90, 0xbf, 0)
  else if b < 0xf4 then some (3, 0x80, 0xbf, b.toNat - 0xf0)
  else if b = 0xf4 then some (3, 0x80, 0x8f, 4)
  else none

/-- Adds `n` continuation bytes to the bits `acc`; only the first is bounded by `lo` and `hi`. -/
def tail? : Nat → UInt8 → UInt8 → Nat → Text → Option Nat
  | 0, _, _, acc, _ => some acc
  | _ + 1, _, _, _, [] => none
  | n + 1, lo, hi, acc, b :: t =>
    if lo ≤ b && b ≤ hi then tail? n 0x80 0xbf (acc * 64 + (b.toNat - 0x80)) t else none

/-- The character that starts with byte `b` before `t`, and how many bytes of `t` it takes. -/
def charAt? (b : UInt8) (t : Text) : Option (Char × Nat) :=
  (lead? b).bind fun (n, lo, hi, bits) => (tail? n lo hi bits t).map fun v => (Char.ofNat v, n)

/-- The pieces of a text after `skip` bytes that an earlier character has taken. -/
def unitsFrom : Nat → Text → List Unit
  | _, [] => []
  | k + 1, _ :: t => unitsFrom k t
  | 0, b :: t =>
    match charAt? b t with
    | some (c, n) => .char c (b :: t.take n) :: unitsFrom n t
    | none => .stray b :: unitsFrom 0 t

/-- The pieces of a text. -/
def units (t : Text) : List Unit := unitsFrom 0 t

/-- The bytes of the pieces, in order. -/
def ofUnits (us : List Unit) : Text := us.flatMap Unit.bytes

theorem ofUnits_unitsFrom (k : Nat) (t : Text) : ofUnits (unitsFrom k t) = t.drop k := by
  induction t generalizing k with
  | nil => simp [unitsFrom, ofUnits]
  | cons b t ih =>
    cases k with
    | succ k => simpa [unitsFrom] using ih k
    | zero =>
      rw [unitsFrom]
      split
      · next c n _ =>
        have h : ofUnits (unitsFrom n t) = t.drop n := ih n
        simp only [ofUnits, List.flatMap_cons, Unit.bytes] at h ⊢
        simp [h, List.take_append_drop]
      · have h : ofUnits (unitsFrom 0 t) = t.drop 0 := ih 0
        simp only [ofUnits, List.flatMap_cons, Unit.bytes] at h ⊢
        simp [h]

/-- Cutting a text into pieces loses nothing. -/
@[simp]
theorem ofUnits_units (t : Text) : ofUnits (units t) = t :=
  ofUnits_unitsFrom 0 t

/-- Whether every byte belongs to a character. -/
def isUtf8 (t : Text) : Bool :=
  (units t).all fun u => match u with
    | .char _ _ => true
    | .stray _ => false

/-- The characters of a text, each stray byte read as U+FFFD. -/
def chars (t : Text) : List Char := (units t).map Unit.toChar

/-- The bytes of a list of characters. -/
def ofChars (cs : List Char) : Text := cs.flatMap String.utf8EncodeChar

/-- Every stray byte replaced by U+FFFD. -/
def repair (t : Text) : Text :=
  (units t).flatMap fun u => match u with
    | .char _ bs => bs
    | .stray _ => [0xef, 0xbf, 0xbd]

/-- The string that a text spells, if it is well formed. -/
def toString? (t : Text) : Option String :=
  if isUtf8 t then some (String.ofList (chars t)) else none

end Text

end StubDecl
