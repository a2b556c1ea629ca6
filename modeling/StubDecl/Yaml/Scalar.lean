import StubDecl.Text.Basic
import StubDecl.Word

/-!
# What a scalar stands for

A scalar without a tag of its own stands for null, a truth value, a number, a date or a text,
depending on its spelling. `resolve` reads a scalar under a tag and refuses a spelling that does not
fit the tag; `readsAsText` says that a text can be written without quotes and read back.
-/

namespace StubDecl.Yaml

/-- What a scalar stands for. -/
inductive ScalarValue where
  | null
  | bool (b : Bool)
  | int (n : Int)
  | float (x : Float)
  | timestamp
  | text (t : Text)
  deriving Repr

/-! ## Tags -/

/-- The tags of the core types. -/
def nullTag : Text := "!!null"

@[inherit_doc nullTag]
def boolTag : Text := "!!bool"

@[inherit_doc nullTag]
def intTag : Text := "!!int"

@[inherit_doc nullTag]
def floatTag : Text := "!!float"

@[inherit_doc nullTag]
def timestampTag : Text := "!!timestamp"

@[inherit_doc nullTag]
def strTag : Text := "!!str"

@[inherit_doc nullTag]
def seqTag : Text := "!!seq"

@[inherit_doc nullTag]
def mapTag : Text := "!!map"

@[inherit_doc nullTag]
def mergeTag : Text := "!!merge"

@[inherit_doc nullTag]
def binaryTag : Text := "!!binary"

/-- Tags of the core schema are written with two exclamation marks. -/
def shortTag (tag : Text) : Text :=
  match tag.dropPrefix? "tag:yaml.org,2002:" with
  | some r => "!!" ++ r
  | none => tag

/-- The tag of a value. -/
def ScalarValue.tag : ScalarValue → Text
  | .null => nullTag
  | .bool _ => boolTag
  | .int _ => intTag
  | .float _ => floatTag
  | .timestamp => timestampTag
  | .text _ => strTag

/-! ## Numbers -/

/-- The number that a row of digits spells in a base, if there is at least one and all are digits
of the base. -/
def digits? (base : Nat) (t : Text) : Option Nat :=
  if t.isEmpty then none
  else t.foldlM (fun n b => (Ascii.hexValue? b).bind fun d =>
    if d < base then some (n * base + d) else none) 0

/-- A whole number without sign: binary, octal or hexadecimal by its first characters, octal after
a leading zero, decimal otherwise. -/
def unsigned? : Text → Option Nat
  | [0x30] => some 0
  | 0x30 :: x :: r =>
    let y := Ascii.toUpper x
    if !r.isEmpty && y = 0x42 then digits? 2 r
    else if !r.isEmpty && y = 0x4f then digits? 8 r
    else if !r.isEmpty && y = 0x58 then digits? 16 r
    else digits? 8 (x :: r)
  | t => digits? 10 t

/-- A magnitude with a plus sign in front. -/
def positive? (n : Nat) : Option Int := if n < Word.half then some n else none

/-- A magnitude with a minus sign in front. -/
def negative? (n : Nat) : Option Int := if n ≤ Word.half then some (-n) else none

/-- A whole number between -2^63 and 2^64; only numbers below 2^63 may carry a sign. The sign of a
binary or octal number may also follow the letter. -/
def int? (t : Text) : Option Int :=
  match t with
  | 0x2b :: r => (unsigned? r).bind positive?
  | 0x2d :: r => (unsigned? r).bind negative?
  | 0x30 :: 0x62 :: 0x2b :: r => (digits? 2 r).bind positive?
  | 0x30 :: 0x62 :: 0x2d :: r => (digits? 2 r).bind negative?
  | 0x30 :: 0x6f :: 0x2b :: r => (digits? 8 r).bind positive?
  | 0x30 :: 0x6f :: 0x2d :: r => (digits? 8 r).bind negative?
  | r => (unsigned? r).bind fun n => if n < Word.size then some (n : Int) else none

/-- The parts of a decimal number: its digits as one number, how many of them follow the point,
and the exponent. -/
structure Decimal where
  digits : Nat
  places : Nat
  exponent : Int

/-- An exponent: empty, or a mark, an optional sign and digits. -/
def exponent? (t : Text) : Option Int :=
  match t with
  | [] => some 0
  | e :: r =>
    if Ascii.toUpper e = 0x45 then
      match r with
      | 0x2b :: ds => (digits? 10 ds).map fun n => (n : Int)
      | 0x2d :: ds => (digits? 10 ds).map fun n => -(n : Int)
      | ds => (digits? 10 ds).map fun n => (n : Int)
    else none

/-- A decimal number without sign: digits, optionally a point and more digits, and an optional
exponent. There is a digit before or behind the point. -/
def decimal? (t : Text) : Option Decimal :=
  let whole := t.takeWhile Ascii.isDigit
  let rest := t.dropWhile Ascii.isDigit
  let (part, tail) := match rest with
    | 0x2e :: r => (r.takeWhile Ascii.isDigit, r.dropWhile Ascii.isDigit)
    | r => ([], r)
  if whole.isEmpty && part.isEmpty then none
  else do
    let n ← digits? 10 (whole ++ part)
    let e ← exponent? tail
    return ⟨n, part.length, e⟩

/-- The nearest binary number, unless it is beyond all of them. Exponents far outside the range
of binary numbers are settled without computing the power. -/
def Decimal.toFloat? (d : Decimal) : Option Float :=
  let e := d.exponent - d.places
  let size : Int := (Nat.toDigits 10 d.digits).length
  if d.digits = 0 then some 0
  else if e + size > 320 then none
  else if e + size < -340 then some 0
  else
    let x := if e < 0 then Float.ofScientific d.digits true e.natAbs
      else Float.ofScientific d.digits false e.natAbs
    if x.isInf then none else some x

/-- A decimal number with an optional sign. -/
def float? (t : Text) : Option Float :=
  match t with
  | 0x2b :: r => (decimal? r).bind Decimal.toFloat?
  | 0x2d :: r => ((decimal? r).bind Decimal.toFloat?).map Float.neg
  | r => (decimal? r).bind Decimal.toFloat?

/-- Whether every underscore stands between two digits. -/
def underscoresBetweenDigits : Bool → Text → Bool
  | _, [] => true
  | digit, 0x5f :: r => digit && (r.head?.any Ascii.isDigit) && underscoresBetweenDigits false r
  | _, b :: r => underscoresBetweenDigits (Ascii.isDigit b) r

/-- The text without underscores. -/
def withoutUnderscores (t : Text) : Text := t.filter (· ≠ 0x5f)

/-! ## Dates -/

/-- A number of one or two digits, and what follows it. -/
def shortNumber? : Text → Option (Nat × Text)
  | a :: b :: r =>
    if !Ascii.isDigit a then none
    else if Ascii.isDigit b then some ((a.toNat - 48) * 10 + (b.toNat - 48), r)
    else some (a.toNat - 48, b :: r)
  | [a] => if Ascii.isDigit a then some (a.toNat - 48, []) else none
  | [] => none

/-- What follows the byte `b`. -/
def after? (b : UInt8) : Text → Option Text
  | c :: r => if c = b then some r else none
  | [] => none

/-- The number of days of a month. -/
def daysIn (year month : Nat) : Nat :=
  if month = 2 then
    (if year % 4 = 0 && (year % 100 ≠ 0 || year % 400 = 0) then 29 else 28)
  else if [4, 6, 9, 11].contains month then 30
  else 31

/-- What follows a date of the calendar. -/
def afterDate? (t : Text) : Option Text := do
  if !((t.take 4).length = 4 && (t.take 4).all Ascii.isDigit) then none
  let year ← digits? 10 (t.take 4)
  let t ← after? 0x2d (t.drop 4)
  let (month, t) ← shortNumber? t
  let t ← after? 0x2d t
  let (day, t) ← shortNumber? t
  if 1 ≤ month && month ≤ 12 && 1 ≤ day && day ≤ daysIn year month then some t else none

/-- What follows a time of the day with an optional fraction of a second. -/
def afterTime? (t : Text) : Option Text := do
  let (hour, t) ← shortNumber? t
  let t ← after? 0x3a t
  let (minute, t) ← shortNumber? t
  let t ← after? 0x3a t
  let (second, t) ← shortNumber? t
  if 24 ≤ hour || 60 ≤ minute || 60 ≤ second then none
  match t with
  | p :: d :: r =>
    if (p = 0x2e || p = 0x2c) && Ascii.isDigit d then some (r.dropWhile Ascii.isDigit) else some t
  | _ => some t

/-- Whether a text is the name of a time zone: `Z`, or a signed offset in hours and minutes. -/
def isZone : Text → Bool
  | [0x5a] => true
  | [s, a, b, 0x3a, c, d] =>
    (s = 0x2b || s = 0x2d) && [a, b, c, d].all Ascii.isDigit &&
      (a.toNat - 48) * 10 + (b.toNat - 48) ≤ 24 && (c.toNat - 48) * 10 + (d.toNat - 48) ≤ 60
  | _ => false

/-- Whether a text is a date, a date and a time divided by blanks, or a date and a time with a
zone divided by the letter T. -/
def isTimestamp (t : Text) : Bool :=
  match afterDate? t with
  | none => false
  | some [] => true
  | some (b :: r) =>
    if b = 0x54 || b = 0x74 then (afterTime? r).any isZone
    else if b = 0x20 then (afterTime? (r.dropWhile (· = 0x20))).any List.isEmpty
    else false

/-! ## Scalars -/

/-- Infinity. -/
def infinity : Float := 1.0 / 0.0

/-- The spellings of null, of the truth values and of the numbers without digits. -/
def named? (t : Text) : Option ScalarValue :=
  let among := fun (ws : List Text) => ws.contains t
  if among ["", "~", "null", "Null", "NULL"] then some .null
  else if among ["true", "True", "TRUE"] then some (.bool true)
  else if among ["false", "False", "FALSE"] then some (.bool false)
  else if among [".nan", ".NaN", ".NAN"] then some (.float (0.0 / 0.0))
  else if among [".inf", ".Inf", ".INF", "+.inf", "+.Inf", "+.INF"] then some (.float infinity)
  else if among ["-.inf", "-.Inf", "-.INF"] then some (.float (-infinity))
  else none

/-- The number that a text spells. After a point, underscores may divide digits; elsewhere they do
not count. -/
def number? (t : Text) : Option ScalarValue :=
  match t with
  | 0x2e :: _ =>
    if underscoresBetweenDigits false t then (float? (withoutUnderscores t)).map .float else none
  | b :: _ =>
    if Ascii.isDigit b || b = 0x2b || b = 0x2d then
      let plain := withoutUnderscores t
      match int? plain with
      | some n => some (.int n)
      | none => (float? plain).map .float
    else none
  | [] => none

/-- What a scalar stands for by its spelling alone. -/
def implicitValue (dates : Bool) (t : Text) : ScalarValue :=
  match named? t with
  | some v => v
  | none =>
    if dates && isTimestamp t then .timestamp
    else (number? t).getD (.text t)

/-- What a scalar stands for under a tag (none: by its spelling). A text fits the text tag and
every tag that is not of the core schema; a whole number of 64 bits fits the tag of the decimal
numbers. -/
def resolve (tag : Text) (t : Text) : Option (Text × ScalarValue) :=
  let tag := shortTag tag
  if tag = strTag then some (strTag, .text t)
  else if [[], boolTag, intTag, floatTag, nullTag, timestampTag].contains tag then
    let v := implicitValue (tag = [] || tag = timestampTag) t
    if tag = [] || tag = v.tag then some (v.tag, v)
    else match v with
      | .int n => if tag = floatTag && n < Word.half then some (floatTag, .float (Float.ofInt n)) else none
      | _ => none
  else some (tag, .text t)

/-! ## Texts that need quotes -/

/-- Spellings of truth values in older documents. -/
def oldBool? (t : Text) : Option Bool :=
  let among := fun (ws : List Text) => ws.contains t
  if among ["y", "Y", "yes", "Yes", "YES", "on", "On", "ON"] then some true
  else if among ["n", "N", "no", "No", "NO", "off", "Off", "OFF"] then some false
  else none

/-- The part of a number in base 60 behind its first digits: groups of a colon and a number below
60, then an optional fraction. -/
def isBase60Tail (groups : Bool) : Nat → Text → Bool
  | 0, _ => false
  | k + 1, t =>
    match t with
    | [] => groups
    | 0x2e :: r => groups && r.all fun b => Ascii.isDigit b || b = 0x5f
    | 0x3a :: a :: b :: r =>
      if Ascii.isDigit a && Ascii.isDigit b then a ≤ 0x35 && isBase60Tail true k r
      else Ascii.isDigit a && isBase60Tail true k (b :: r)
    | [0x3a, a] => Ascii.isDigit a
    | _ => false

/-- Whether a text is a number in base 60. -/
def isBase60 (t : Text) : Bool :=
  let u := match t with
    | 0x2b :: r => r
    | 0x2d :: r => r
    | r => r
  match u with
  | b :: r =>
    Ascii.isDigit b &&
      isBase60Tail false (t.length + 1) (r.dropWhile fun c => Ascii.isDigit c || c = 0x5f)
  | [] => false

/-- Whether a text that is written without quotes is read back as that text, also by readers of
older documents. -/
def readsAsText (t : Text) : Bool :=
  match implicitValue true t with
  | .text _ => !(isBase60 t || (oldBool? t).isSome)
  | _ => false

end StubDecl.Yaml
