import StubDecl.Text.Basic
import StubDecl.Word

/-!
# Durations

A duration is a number of nanoseconds in 64 bits. It is written as numbers with units, such as
`1h30m` or `1.5s`.

* `Duration.parse`: reads a duration;
* `Duration.format`: a short text for people, which leaves small units out.
-/

namespace StubDecl

/-- A number of nanoseconds. -/
abbrev Duration := Int64

namespace Duration

/-- The units and their nanoseconds. Both signs for micro are known. -/
def units : List (Text × Nat) :=
  [("ns", 1), ("us", 1000), ("\u00b5s", 1000), ("\u03bcs", 1000), ("ms", 1000000),
    ("s", 1000000000), ("m", 60000000000), ("h", 3600000000000)]

/-- Why a text is no duration. -/
inductive Fault where
  | invalid
  | missingUnit
  | unknownUnit (u : Text)
  deriving DecidableEq, Repr

/-- The text between double quotes, with bytes outside ASCII and control characters in hexadecimal. -/
def quote (t : Text) : Text :=
  let byte := fun (b : UInt8) =>
    if 0x80 ≤ b || b < 0x20 then [0x5c, 0x78] ++ Text.hexOfNat 2 b.toNat
    else if b = 0x22 || b = 0x5c then [0x5c, b]
    else [b]
  0x22 :: (t.flatMap byte ++ [0x22])

/-- What is said about a text that is no duration. -/
def Fault.message (t : Text) : Fault → Text
  | .invalid => "time: invalid duration " ++ quote t
  | .missingUnit => "time: missing unit in duration " ++ quote t
  | .unknownUnit u => "time: unknown unit " ++ quote u ++ " in duration " ++ quote t

/-- The number that decimal digits spell. -/
def number (digits : Text) : Nat := digits.foldl (fun n b => n * 10 + (b.toNat - 0x30)) 0

/-- One number with a unit, split at the front of a text: the digits before the point, those behind
it, the unit, and the rest. -/
structure Piece where
  whole : Text
  fraction : Text
  unit : Text
  rest : Text

/-- Cuts one number with a unit off a text. -/
def piece (t : Text) : Piece :=
  let whole := t.takeWhile Ascii.isDigit
  let r := t.drop whole.length
  let fraction := if r.head? = some 0x2e then (r.drop 1).takeWhile Ascii.isDigit else []
  let r := if r.head? = some 0x2e then r.drop (1 + fraction.length) else r
  let unit := r.takeWhile fun b => b ≠ 0x2e && !Ascii.isDigit b
  ⟨whole, fraction, unit, r.drop unit.length⟩

theorem length_rest_lt {t : Text} (h : (piece t).unit ≠ []) : (piece t).rest.length < t.length := by
  have hu : 0 < (piece t).unit.length := List.length_pos_iff.2 h
  have hle : ∀ (s : Text) (p : UInt8 → Bool), (s.takeWhile p).length ≤ s.length := fun s p =>
    (List.takeWhile_sublist p).length_le
  simp only [piece] at hu ⊢
  split at hu
  · next hp =>
    simp only [hp, if_true, List.length_drop] at hu ⊢
    have := hle (t.drop (t.takeWhile Ascii.isDigit).length |>.drop
      (1 + ((t.drop (t.takeWhile Ascii.isDigit).length).drop 1 |>.takeWhile Ascii.isDigit).length))
      fun b => b ≠ 0x2e && !Ascii.isDigit b
    simp only [List.length_drop] at this
    omega
  · next hp =>
    simp only [hp, if_false, List.length_drop] at hu ⊢
    have := hle (t.drop (t.takeWhile Ascii.isDigit).length) fun b => b ≠ 0x2e && !Ascii.isDigit b
    simp only [List.length_drop] at this
    omega

/-- The digits behind a point as a whole number and the power of ten that divides it. Digits from
where the number exceeds 63 bits on do not count. -/
def fraction (digits : Text) : Nat × Float :=
  go 0 1 digits
where
  /-- One digit after the other. -/
  go (n : Nat) (scale : Float) : Text → Nat × Float
  | [] => (n, scale)
  | b :: t =>
    let m := n * 10 + (b.toNat - 0x30)
    if (Word.half - 1) / 10 < n || Word.half < m then (n, scale) else go m (scale * 10) t

/-- The nanoseconds of a number with a unit. The part behind the point is counted with binary numbers
of double precision, and a fraction of a nanosecond is cut off. -/
def Piece.value (p : Piece) : Except Fault Nat :=
  if p.whole.isEmpty && p.fraction.isEmpty then .error .invalid
  else if Word.half < number p.whole then .error .invalid
  else if p.unit.isEmpty then .error .missingUnit
  else match (units.find? fun e => e.1 = p.unit).map (·.2) with
    | none => .error (.unknownUnit p.unit)
    | some u =>
      let (n, scale) := Duration.fraction p.fraction
      let part := (n.toUInt64.toFloat * (u.toUInt64.toFloat / scale)).toUInt64.toNat
      let v := number p.whole * u + part
      if Word.half < number p.whole * u || Word.half < v then .error .invalid else .ok v

/-- The sum of numbers with units, on top of `sum`. Sums are kept in 64 bits. -/
def total (t : Text) (sum : Nat) : Except Fault Nat :=
  if t.isEmpty then .ok sum
  else if !(t.head?.any fun b => b = 0x2e || Ascii.isDigit b) then .error .invalid
  else match (piece t).value with
    | .error f => .error f
    | .ok v =>
      let s := (sum + v) % Word.size
      if Word.half < s then .error .invalid
      else if _ : (piece t).unit = [] then .error .missingUnit
      else total (piece t).rest s
termination_by t.length
decreasing_by exact length_rest_lt (by assumption)

/-- Reads a duration. Zero needs no unit. -/
def parse (t : Text) : Except Fault Duration :=
  let negative := t.head? = some 0x2d
  let r := if negative || t.head? = some 0x2b then t.drop 1 else t
  if r = "0" then .ok 0
  else if r.isEmpty then .error .invalid
  else do
    let n ← total r 0
    if negative then .ok (Int64.ofInt (-(n : Int)))
    else if n < Word.half then .ok (Int64.ofInt n) else .error .invalid

/-- A duration as a short text. Hours and minutes are counted with binary numbers of double precision,
so that very long durations may be rounded up. -/
def format (ns : Duration) : Text :=
  let second : Int := 1000000000
  let n := ns.toInt
  let units := fun (unit : Int) =>
    ((Float.ofInt (n / unit) + Float.ofInt (n % unit) / Float.ofInt unit).toInt64).toInt
  if n < second then "<1s"
  else if n < 60 * second then Text.ofInt (n / second) ++ "s"
  else if n < 3600 * second then
    Text.ofInt (n / (60 * second)) ++ "m" ++ Text.ofInt (n / second % 60) ++ "s"
  else
    Text.ofInt (units (3600 * second)) ++ "h" ++ Text.ofInt (units (60 * second) % 60) ++ "m"

end Duration

end StubDecl
