import StubDecl.Text.Utf8

/-!
# White space at the ends of a text

The characters with the Unicode property White_Space, and the two trimming operations. Stray bytes
are never white space.
-/

namespace StubDecl

/-- The property White_Space. -/
def isBlank (c : Char) : Bool :=
  let n := c.toNat
  (0x09 ≤ n && n ≤ 0x0d) || n == 0x20 || n == 0x85 || n == 0xa0 || n == 0x1680 ||
    (0x2000 ≤ n && n ≤ 0x200a) || n == 0x2028 || n == 0x2029 || n == 0x202f || n == 0x205f ||
    n == 0x3000

namespace Text

/-- Whether a piece is a white space character. -/
def Unit.isBlank : Unit → Bool
  | .char c _ => StubDecl.isBlank c
  | .stray _ => false

/-- The text without the white space at its end. -/
def trimEnd (t : Text) : Text :=
  ofUnits ((units t).reverse.dropWhile Unit.isBlank).reverse

/-- The text without the white space at its start and end. -/
def trim (t : Text) : Text :=
  ofUnits (((units t).dropWhile Unit.isBlank).reverse.dropWhile Unit.isBlank).reverse

end Text

end StubDecl
