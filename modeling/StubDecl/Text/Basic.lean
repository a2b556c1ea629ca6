/-!
# Texts

File contents, paths and declaration blocks need not be well-formed UTF-8, so a text is a plain
list of bytes. This module has the operations that do not look at characters:

* `Text.ofString`: the bytes of a string literal; a literal is read as a text where one is expected;
* `Text.splitOn`, `Text.joinWith`: cutting at a byte and putting pieces together;
* `Text.le`: the bytewise order, in which all listings are sorted;
* `Text.ofNat`, `Text.ofInt`: decimal numerals.
-/

namespace StubDecl

/-- A text: bytes, usually UTF-8. -/
abbrev Text := List UInt8

namespace Text

/-- The UTF-8 bytes of a string. -/
def ofString (s : String) : Text :=
  s.toList.flatMap String.utf8EncodeChar

instance : Coe String Text := ⟨ofString⟩

instance : LawfulBEq Text := inferInstance

/-- The text without `pre` at its start, if it starts so. -/
def dropPrefix? : Text → Text → Option Text
  | t, [] => some t
  | [], _ :: _ => none
  | b :: t, c :: pre => if b = c then dropPrefix? t pre else none

theorem dropPrefix?_append (pre t : Text) : dropPrefix? (pre ++ t) pre = some t := by
  induction pre with
  | nil => cases t <;> rfl
  | cons c pre ih => simpa [dropPrefix?] using ih

theorem eq_append_of_dropPrefix? {t pre r : Text} (h : dropPrefix? t pre = some r) :
    t = pre ++ r := by
  fun_induction dropPrefix? t pre with
  | case1 t => simpa using h
  | case2 => simp at h
  | case3 b t pre ih => simp [ih h]
  | case4 => simp at h

/-- Whether the text starts with `pre`. -/
def startsWith (t pre : Text) : Bool := pre.isPrefixOf t

/-- Whether the text ends with `suf`. -/
def endsWith (t suf : Text) : Bool := suf.isSuffixOf t

/-- Whether `sub` occurs in the text. -/
def hasInfix (t sub : Text) : Bool :=
  match t with
  | [] => sub.isEmpty
  | b :: r => sub.isPrefixOf (b :: r) || hasInfix r sub

/-- The pieces between the occurrences of `sep`: one more piece than occurrences. -/
def splitOn (sep : UInt8) : Text → List Text
  | [] => [[]]
  | b :: t =>
    if b = sep then [] :: splitOn sep t
    else match splitOn sep t with
      | [] => [[b]]
      | p :: ps => (b :: p) :: ps

theorem splitOn_ne_nil (sep : UInt8) (t : Text) : splitOn sep t ≠ [] := by
  cases t with
  | nil => simp [splitOn]
  | cons b t => simp only [splitOn]; split <;> (try split) <;> simp

/-- The texts one after the other, with `sep` between neighbours. -/
def joinWith (sep : Text) : List Text → Text
  | [] => []
  | [t] => t
  | t :: u :: ts => t ++ sep ++ joinWith sep (u :: ts)

theorem joinWith_cons (sep t : Text) {ts : List Text} (h : ts ≠ []) :
    joinWith sep (t :: ts) = t ++ sep ++ joinWith sep ts := by
  cases ts with
  | nil => exact absurd rfl h
  | cons u ts => rfl

/-- Bytewise lexicographic order. -/
def le : Text → Text → Bool
  | [], _ => true
  | _ :: _, [] => false
  | a :: s, b :: t => if a = b then le s t else a < b

/-- The texts in bytewise order. -/
def sort (ts : List Text) : List Text := ts.mergeSort le

/-- The decimal digits of a number. -/
def ofNat (n : Nat) : Text := (Nat.toDigits 10 n).map fun c => c.toNat.toUInt8

/-- A decimal numeral, with a minus sign for negative numbers. -/
def ofInt : Int → Text
  | .ofNat n => ofNat n
  | .negSucc n => 0x2d :: ofNat (n + 1)

/-- A decimal numeral that always carries a sign. -/
def ofIntSigned (n : Int) : Text := if n < 0 then ofInt n else 0x2b :: ofInt n

/-- `n` blanks. -/
def blanks (n : Nat) : Text := List.replicate n 0x20

/-- The sixteen hexadecimal digits, lower case. -/
def hexDigit (n : Nat) : UInt8 :=
  if n < 10 then (0x30 + n).toUInt8 else (0x61 + (n - 10)).toUInt8

/-- The bytes of a text as two hexadecimal digits each. -/
def toHex (t : Text) : Text :=
  t.flatMap fun b => [hexDigit (b.toNat / 16), hexDigit (b.toNat % 16)]

/-- A number as exactly `width` hexadecimal digits. -/
def hexOfNat (width n : Nat) : Text :=
  match width with
  | 0 => []
  | w + 1 => hexOfNat w (n / 16) ++ [hexDigit (n % 16)]

end Text

/-! ## Classes of ASCII bytes -/

namespace Ascii

/-- The decimal digits. -/
def isDigit (b : UInt8) : Bool := 0x30 ≤ b && b ≤ 0x39

/-- The ASCII letters. -/
def isLetter (b : UInt8) : Bool := (0x41 ≤ b && b ≤ 0x5a) || (0x61 ≤ b && b ≤ 0x7a)

/-- The ASCII letters and digits. -/
def isAlnum (b : UInt8) : Bool := isLetter b || isDigit b

/-- The value of a hexadecimal digit of either case. -/
def hexValue? (b : UInt8) : Option Nat :=
  if isDigit b then some (b.toNat - 0x30)
  else if 0x61 ≤ b && b ≤ 0x66 then some (b.toNat - 0x61 + 10)
  else if 0x41 ≤ b && b ≤ 0x46 then some (b.toNat - 0x41 + 10)
  else none

/-- The capital of a small letter, and any other byte as it is. -/
def toUpper (b : UInt8) : UInt8 := if 0x61 ≤ b && b ≤ 0x7a then b - 0x20 else b

end Ascii

end StubDecl
