import StubDecl.Text.Utf8

/-!
# Texts in JSON

A text as a JSON string. Besides what JSON demands, the two Unicode line separators are escaped, and
in a string that may stand inside a web page also the characters `<`, `>` and `&`. A stray byte
becomes U+FFFD.
-/

namespace StubDecl.Json

/-- An escape with four hexadecimal digits. -/
def unicodeEscape (n : Nat) : Text := "\\u" ++ Text.hexOfNat 4 n

/-- Whether a character is written as a numeric escape; `web` says that the string may stand inside
a web page. -/
def needsEscape (web : Bool) (n : Nat) : Bool :=
  n < 0x20 || n = 0x2028 || n = 0x2029 || (web && (n = 0x3c || n = 0x3e || n = 0x26))

/-- A piece of a text inside a JSON string. -/
def escape (web : Bool) : Text.Unit → Text
  | .stray _ => unicodeEscape 0xfffd
  | .char c bytes =>
    let n := c.toNat
    if n = 0x22 then "\\\""
    else if n = 0x5c then "\\\\"
    else if n = 0x08 then "\\b"
    else if n = 0x0c then "\\f"
    else if n = 0x0a then "\\n"
    else if n = 0x0d then "\\r"
    else if n = 0x09 then "\\t"
    else if needsEscape web n then unicodeEscape n
    else bytes

/-- A text as a JSON string that may stand inside a web page. -/
def string (t : Text) : Text := 0x22 :: t.units.flatMap (escape true) ++ [0x22]

/-- A text as a JSON string that stands alone. -/
def plainString (t : Text) : Text := 0x22 :: t.units.flatMap (escape false) ++ [0x22]

end StubDecl.Json
