import StubDecl.Text.Utf8
import StubDecl.Text.Printable

/-!
# Quoted texts

`Text.quoted` writes a text between double quotes so that every byte can be told from the result:
the quote and the backslash are escaped by a backslash, the seven control characters with a letter
of their own by that letter, and everything else that does not print by a numeric escape whose
width says what it stands for (`\x` a byte, `\u` and `\U` a code point). `Text.quotedChar` does the
same for one character between single quotes.
-/

namespace StubDecl.Text

/-- The letter that names a control character in an escape. -/
def escapeLetter? (n : Nat) : Option UInt8 :=
  match n with
  | 0x07 => some 0x61
  | 0x08 => some 0x62
  | 0x0c => some 0x66
  | 0x0a => some 0x6e
  | 0x0d => some 0x72
  | 0x09 => some 0x74
  | 0x0b => some 0x76
  | _ => none

/-- One piece inside quotes with the code point `mark`. -/
def Unit.quotedBy (mark : Nat) : Unit → Text
  | .stray b => "\\x" ++ hexOfNat 2 b.toNat
  | .char c bs =>
    let n := c.toNat
    if n = mark || c = '\\' then 0x5c :: bs
    else if isPrintable c then bs
    else match escapeLetter? n with
      | some l => [0x5c, l]
      | none =>
        if n < 0x20 || n = 0x7f then "\\x" ++ hexOfNat 2 n
        else if n < 0x10000 then "\\u" ++ hexOfNat 4 n
        else "\\U" ++ hexOfNat 8 n

/-- One piece inside double quotes. -/
def Unit.quoted (u : Unit) : Text := u.quotedBy 0x22

/-- The text between double quotes, with escapes. -/
def quoted (t : Text) : Text :=
  0x22 :: ((units t).flatMap Unit.quoted ++ [0x22])

/-- The character between single quotes, with escapes. -/
def quotedChar (c : Char) : Text :=
  0x27 :: ((Unit.char c (String.utf8EncodeChar c)).quotedBy 0x27 ++ [0x27])

end StubDecl.Text
