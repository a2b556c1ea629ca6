import StubDecl.Yaml.Problem

/-!
# The characters of a YAML stream

A stream is UTF-8, or UTF-16 if it starts with the byte order mark of that encoding. Only printable
characters, tabs and line ends may occur. A stream is read in portions of 512 bytes, and what is
wrong with a portion matters only once it is read: `Stream.ofText` gives the portions in front of the
first fault.
-/

namespace StubDecl.Yaml

/-! ## Classes of characters -/

/-- The characters a stream may hold. -/
def isAllowed (n : Nat) : Bool :=
  n == 0x09 || n == 0x0a || n == 0x0d || (0x20 ≤ n && n ≤ 0x7e) || n == 0x85 ||
    (0xa0 ≤ n && n ≤ 0xd7ff) || (0xe000 ≤ n && n ≤ 0xfffd) || (0x10000 ≤ n && n ≤ 0x10ffff)

/-- The end of a stream. No stream holds this character. -/
def endMark : Char := '\x00'

/-- The characters that end a line. -/
def isBreak (c : Char) : Bool :=
  c = '\n' || c = '\r' || c = '\u0085' || c = '\u2028' || c = '\u2029'

/-- Blanks and tabs. -/
def isGap (c : Char) : Bool := c = ' ' || c = '\t'

/-- Line ends and the end of the stream. -/
def isLineEnd (c : Char) : Bool := isBreak c || c = endMark

/-- Gaps, line ends and the end of the stream. -/
def isWordEnd (c : Char) : Bool := isGap c || isLineEnd c

/-! ## Encodings -/

/-- The encodings of a stream. -/
inductive Encoding where
  | utf8
  | utf16 (highFirst : Bool)
  deriving DecidableEq, Repr

/-- What some bytes start with: a character of a number of bytes, a part of one that is cut off,
or neither. -/
inductive Decoded where
  | char (c : Char) (width : Nat)
  | cut (p : EncodingProblem)
  | bad (p : EncodingProblem)

/-- A character by its number, if the stream may hold it. -/
def Decoded.ofNat (n width : Nat) : Decoded :=
  if isAllowed n then .char (Char.ofNat n) width else .bad .controlCharacter

/-- The number of bytes of a UTF-8 sequence, by its first byte. -/
def octetCount? (b : UInt8) : Option Nat :=
  if b < 0x80 then some 1
  else if b < 0xc0 then none
  else if b < 0xe0 then some 2
  else if b < 0xf0 then some 3
  else if b < 0xf8 then some 4
  else none

/-- Whether a byte continues a UTF-8 sequence. -/
def isTrail (b : UInt8) : Bool := 0x80 ≤ b && b < 0xc0

/-- The bits that the first byte of a sequence of `width` bytes carries. -/
def leadBits (b : UInt8) (width : Nat) : Nat :=
  match width with
  | 1 => b.toNat
  | 2 => b.toNat - 0xc0
  | 3 => b.toNat - 0xe0
  | _ => b.toNat - 0xf0

/-- The least number that needs a sequence of `width` bytes. -/
def leastOf (width : Nat) : Nat :=
  match width with
  | 1 => 0
  | 2 => 0x80
  | 3 => 0x800
  | _ => 0x10000

/-- The UTF-8 character that some bytes start with. -/
def decodeOctets (t : Text) : Decoded :=
  match t with
  | [] => .cut .cutOctets
  | b :: r =>
    match octetCount? b with
    | none => .bad .leadOctet
    | some width =>
      let tail := r.take (width - 1)
      if tail.length < width - 1 then .cut .cutOctets
      else if !tail.all isTrail then .bad .trailOctet
      else
        let n := tail.foldl (fun n b => n * 64 + (b.toNat - 0x80)) (leadBits b width)
        if n < leastOf width then .bad .overlong
        else if (0xd800 ≤ n && n ≤ 0xdfff) || 0x10ffff < n then .bad .noCharacter
        else .ofNat n width

/-- The UTF-16 character that some bytes start with. -/
def decodeUnits (highFirst : Bool) (t : Text) : Decoded :=
  let unit := fun (a b : UInt8) =>
    if highFirst then a.toNat * 256 + b.toNat else b.toNat * 256 + a.toNat
  let isLow := fun n => 0xdc00 ≤ n && n < 0xe000
  match t with
  | a :: b :: r =>
    let n := unit a b
    if isLow n then .bad .strayLowSurrogate
    else if 0xd800 ≤ n && n < 0xdc00 then
      match r with
      | c :: d :: _ =>
        let m := unit c d
        if isLow m then .ofNat (0x10000 + (n - 0xd800) * 0x400 + (m - 0xdc00)) 4
        else .bad .missingLowSurrogate
      | _ => .cut .cutPair
    else .ofNat n 2
  | _ => .cut .cutUnit

/-- The character that some bytes start with. -/
def Encoding.decode : Encoding → Text → Decoded
  | .utf8 => decodeOctets
  | .utf16 highFirst => decodeUnits highFirst

/-- The encoding of a stream and the length of its byte order mark. -/
def Encoding.ofText (t : Text) : Encoding × Nat :=
  match t with
  | 0xff :: 0xfe :: _ => (.utf16 false, 2)
  | 0xfe :: 0xff :: _ => (.utf16 true, 2)
  | 0xef :: 0xbb :: 0xbf :: _ => (.utf8, 3)
  | _ => (.utf8, 0)

/-! ## Portions -/

/-- The characters of a stream: the portions in front of the first fault, and the fault. -/
structure Stream where
  portions : List (List Char) := []
  fault : Option EncodingProblem := none
  deriving Repr

namespace Stream

/-- The number of bytes of a portion. -/
def portionSize : Nat := 512

/-- The characters of a portion and the bytes of a character that is cut off at its end. -/
def decodePortion (e : Encoding) : Nat → Text → List Char → Except EncodingProblem (List Char × Text)
  | 0, t, cs => .ok (cs.reverse, t)
  | _ + 1, [], cs => .ok (cs.reverse, [])
  | k + 1, b :: t, cs =>
    match e.decode (b :: t) with
    | .char c width => decodePortion e k (t.drop (width - 1)) (c :: cs)
    | .cut _ => .ok (cs.reverse, b :: t)
    | .bad p => .error p

/-- The portions of some bytes; the first has `size` bytes. -/
def cut (e : Encoding) : Nat → Nat → Text → Stream
  | 0, _, _ => {}
  | k + 1, size, t =>
    if t.isEmpty then {}
    else match decodePortion e size (t.take size) [] with
      | .error p => { fault := some p }
      | .ok ([], left) =>
        match e.decode left with
        | .cut p => { fault := some p }
        | _ => {}
      | .ok (cs, left) =>
        let s := cut e k portionSize (left ++ t.drop size)
        { s with portions := cs :: s.portions }

/-- The characters of a stream without its byte order mark. A stream without any bytes counts as an
empty line. -/
def ofText (t : Text) : Stream :=
  let t := if t.isEmpty then [0x0a] else t
  let (e, n) := Encoding.ofText t
  cut e (t.length + 1) (portionSize - n) (t.drop n)

/-- The number of characters. -/
def size (s : Stream) : Nat := s.portions.foldl (fun n cs => n + cs.length) 0

end Stream

end StubDecl.Yaml
