import StubDecl.Text.Basic

/-!
# Base 64

Bytes written as groups of four characters out of 64. A last group that is not full is filled up
with equals signs.
-/

namespace StubDecl.Base64

/-- The character for a number below 64. -/
def char (n : Nat) : UInt8 :=
  if n < 26 then (0x41 + n).toUInt8
  else if n < 52 then (0x61 + (n - 26)).toUInt8
  else if n < 62 then (0x30 + (n - 52)).toUInt8
  else if n = 62 then 0x2b
  else 0x2f

/-- The number of a character. -/
def value? (b : UInt8) : Option Nat :=
  if 0x41 ≤ b && b ≤ 0x5a then some (b.toNat - 0x41)
  else if 0x61 ≤ b && b ≤ 0x7a then some (b.toNat - 0x61 + 26)
  else if Ascii.isDigit b then some (b.toNat - 0x30 + 52)
  else if b = 0x2b then some 62
  else if b = 0x2f then some 63
  else none

/-- The characters for some bytes. -/
def encode : Text → Text
  | [] => []
  | [a] => [char (a.toNat / 4), char (a.toNat % 4 * 16), 0x3d, 0x3d]
  | [a, b] =>
    [char (a.toNat / 4), char (a.toNat % 4 * 16 + b.toNat / 16), char (b.toNat % 16 * 4), 0x3d]
  | a :: b :: c :: t =>
    char (a.toNat / 4) :: char (a.toNat % 4 * 16 + b.toNat / 16) ::
      char (b.toNat % 16 * 4 + c.toNat / 64) :: char (c.toNat % 64) :: encode t

/-- The bytes of groups of characters. -/
def decodeGroups? : Text → Option Text
  | [] => some []
  | [a, b, 0x3d, 0x3d] => do
    let (a, b) := (← value? a, ← value? b)
    return [(a * 4 + b / 16).toUInt8]
  | [a, b, c, 0x3d] => do
    let (a, b, c) := (← value? a, ← value? b, ← value? c)
    return [(a * 4 + b / 16).toUInt8, (b % 16 * 16 + c / 4).toUInt8]
  | a :: b :: c :: d :: t => do
    let (a, b, c, d) := (← value? a, ← value? b, ← value? c, ← value? d)
    return (a * 4 + b / 16).toUInt8 :: (b % 16 * 16 + c / 4).toUInt8 ::
      (c % 4 * 64 + d).toUInt8 :: (← decodeGroups? t)
  | _ => none

/-- The bytes that some characters stand for; line ends between them do not count. -/
def decode? (t : Text) : Option Text :=
  decodeGroups? (t.filter fun b => b ≠ 0x0a && b ≠ 0x0d)

end StubDecl.Base64
