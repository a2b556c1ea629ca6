import StubDecl.Text.Utf8
import StubDecl.Word

/-!
# Reading JSON

Records are flat JSON objects. The reader checks a whole JSON text and keeps of an object the keys
with their simple values; arrays and inner objects are checked and forgotten. A stray byte and an
unpaired surrogate in a string become U+FFFD. Deep nesting is refused.
-/

namespace StubDecl.Json

/-- A value without its inner structure. Numbers are kept as they are written. -/
inductive Scalar where
  | null
  | bool (b : Bool)
  | number (numeral : Text)
  | string (t : Text)
  | compound
  deriving DecidableEq, Repr

/-- Past white space. -/
def skipBlanks (t : Text) : Text :=
  t.dropWhile fun b => b = 0x20 || b = 0x09 || b = 0x0a || b = 0x0d

/-! ## Strings -/

/-- The number that four hexadecimal digits spell, and what follows. -/
def hex4? : Text → Option (Nat × Text)
  | a :: b :: c :: d :: t => do
    let a ← Ascii.hexValue? a
    let b ← Ascii.hexValue? b
    let c ← Ascii.hexValue? c
    let d ← Ascii.hexValue? d
    return (a * 4096 + b * 256 + c * 16 + d, t)
  | _ => none

/-- The character of a numeric escape whose first unit is `u`, and what follows it. A surrogate takes
its partner from the escape behind it; without one it is U+FFFD. -/
def pairUp (u : Nat) (t : Text) : Nat × Text :=
  if u < 0xd800 || 0xe000 ≤ u then (u, t)
  else
    let partner := match t with
      | 0x5c :: 0x75 :: r => hex4? r
      | _ => none
    match partner with
    | some (v, r) =>
      if u < 0xdc00 && 0xdc00 ≤ v && v < 0xe000 then
        (0x10000 + (u - 0xd800) * 0x400 + (v - 0xdc00), r)
      else (0xfffd, t)
    | none => (0xfffd, t)

/-- The byte that an escape of one letter stands for. -/
def shortEscape? (b : UInt8) : Option UInt8 :=
  if b = 0x22 || b = 0x5c || b = 0x2f then some b
  else if b = 0x62 then some 0x08
  else if b = 0x66 then some 0x0c
  else if b = 0x6e then some 0x0a
  else if b = 0x72 then some 0x0d
  else if b = 0x74 then some 0x09
  else none

/-- The bytes of a string behind its opening quote, and what follows the closing one. -/
def stringBody : Nat → Text → Option (Text × Text)
  | 0, _ => none
  | k + 1, t =>
    match t with
    | [] => none
    | 0x22 :: r => some ([], r)
    | 0x5c :: 0x75 :: r => do
      let (u, r) ← hex4? r
      let (c, r) := pairUp u r
      let (s, r) ← stringBody k r
      return (String.utf8EncodeChar (Char.ofNat c) ++ s, r)
    | 0x5c :: b :: r => do
      let c ← shortEscape? b
      let (s, r) ← stringBody k r
      return (c :: s, r)
    | b :: r =>
      if b < 0x20 || b = 0x5c then none
      else do
        let (s, r) ← stringBody k r
        return (b :: s, r)

/-- A string behind its opening quote. -/
def string? (t : Text) : Option (Text × Text) := do
  let (s, r) ← stringBody (t.length + 1) t
  return (s.repair, r)

/-! ## Numbers -/

/-- Digits, at least one, and what follows. -/
def digits? (t : Text) : Option (Text × Text) :=
  let ds := t.takeWhile Ascii.isDigit
  if ds.isEmpty then none else some (ds, t.dropWhile Ascii.isDigit)

/-- The numeral here: no leading zero, and a digit behind the point and in the exponent. -/
def numeral? (t : Text) : Option (Text × Text) := do
  let (sign, t) := match t with
    | 0x2d :: r => (([0x2d] : Text), r)
    | r => ([], r)
  let (whole, t) ← match t with
    | 0x30 :: r => some (([0x30] : Text), r)
    | r => digits? r
  let (part, t) ← match t with
    | 0x2e :: r => (digits? r).map fun (ds, r) => (0x2e :: ds, r)
    | r => some ([], r)
  let (power, t) ← match t with
    | e :: r =>
      if e = 0x65 || e = 0x45 then
        match r with
        | s :: r' =>
          if s = 0x2b || s = 0x2d then (digits? r').map fun (ds, r) => (e :: s :: ds, r)
          else (digits? r).map fun (ds, r) => (e :: ds, r)
        | [] => none
      else some ([], e :: r)
    | [] => some ([], [])
  return (sign ++ whole ++ part ++ power, t)

/-- The whole number of 64 bits that a numeral spells, if it is one. -/
def int64? (numeral : Text) : Option Int64 :=
  let value := fun (ds : Text) =>
    if !ds.isEmpty && ds.all Ascii.isDigit then
      some (ds.foldl (fun (n : Nat) b => n * 10 + (b.toNat - 48)) 0)
    else none
  match numeral with
  | 0x2d :: ds => (value ds).bind fun n => if n ≤ Word.half then some (Int64.ofInt (-(n : Int))) else none
  | ds => (value ds).bind fun n => if n < Word.half then some (Int64.ofNat n) else none

/-! ## Values -/

/-- How many arrays and objects may stand inside each other. -/
def maxDepth : Nat := 10000

mutual

/-- The value here, with `depth` arrays and objects inside each other at most. -/
def value? : Nat → Nat → Text → Option (Scalar × Text)
  | 0, _, _ => none
  | k + 1, depth, t =>
    match skipBlanks t with
    | [] => none
    | 0x22 :: r => (string? r).map fun (s, r) => (.string s, r)
    | 0x5b :: r =>
      if depth = 0 then none
      else (elements? true k (depth - 1) r).map fun r => (.compound, r)
    | 0x7b :: r =>
      if depth = 0 then none
      else (members? true k (depth - 1) r).map fun (_, r) => (.compound, r)
    | b :: r =>
      let t := b :: r
      match Text.dropPrefix? t "null", Text.dropPrefix? t "true", Text.dropPrefix? t "false" with
      | some r, _, _ => some (.null, r)
      | _, some r, _ => some (.bool true, r)
      | _, _, some r => some (.bool false, r)
      | none, none, none => (numeral? t).map fun (n, r) => (.number n, r)

/-- What follows the elements of an array. -/
def elements? (first : Bool) : Nat → Nat → Text → Option Text
  | 0, _, _ => none
  | k + 1, depth, t =>
    match skipBlanks t with
    | 0x5d :: r => if first then some r else none
    | t => do
      let (_, t) ← value? k depth t
      match skipBlanks t with
      | 0x5d :: r => some r
      | 0x2c :: r => elements? false k depth r
      | _ => none

/-- The members of an object, and what follows. -/
def members? (first : Bool) : Nat → Nat → Text → Option (List (Text × Scalar) × Text)
  | 0, _, _ => none
  | k + 1, depth, t =>
    match skipBlanks t with
    | 0x7d :: r => if first then some ([], r) else none
    | 0x22 :: t => do
      let (key, t) ← string? t
      match skipBlanks t with
      | 0x3a :: t =>
        let (v, t) ← value? k depth t
        match skipBlanks t with
        | 0x7d :: r => some ([(key, v)], r)
        | 0x2c :: r => (members? false k depth r).map fun (ms, r) => ((key, v) :: ms, r)
        | _ => none
      | _ => none
    | _ => none

end

/-- A whole JSON text: an object with its members, or any other value. -/
inductive Whole where
  | object (members : List (Text × Scalar))
  | other (v : Scalar)
  deriving DecidableEq, Repr

/-- Reads a whole JSON text. -/
def parse (t : Text) : Option Whole :=
  let fuel := 2 * t.length + 2
  match skipBlanks t with
  | 0x7b :: r =>
    match members? true fuel (maxDepth - 1) r with
    | some (ms, rest) => if (skipBlanks rest).isEmpty then some (.object ms) else none
    | none => none
  | _ =>
    match value? fuel maxDepth t with
    | some (v, rest) => if (skipBlanks rest).isEmpty then some (.other v) else none
    | none => none

/-- A key without its case: letters of ASCII in capitals, and the two letters outside of ASCII whose
capitals are in it. -/
def foldKey (key : Text) : Text :=
  key.units.flatMap fun u => match u with
    | .char c bytes =>
      if c.toNat = 0x17f then [0x53]
      else if c.toNat = 0x212a then [0x4b]
      else bytes.map Ascii.toUpper
    | .stray b => [b]

/-- Whether a key names a field; case does not count. -/
def names (key field : Text) : Bool := foldKey key = foldKey field

end StubDecl.Json
