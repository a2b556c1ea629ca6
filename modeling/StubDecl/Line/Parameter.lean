import StubDecl.Text.Blank

/-!
# Parameter lists

The parameter list of a method as it stands between the parentheses: `split` cuts it at the
commas, `restName?` recognises the marker of a rest parameter, as in `/*...*/masks`.
-/

namespace StubDecl.Parameter

/-- Bytes that may stand in a parameter: letters, digits, `/`, `*` and `.`. -/
def isByte (b : UInt8) : Bool := Ascii.isAlnum b || b = 0x2f || b = 0x2a || b = 0x2e

/-- How far a parameter list has been read: between two parameters, inside one, or behind the
comma that ends one. -/
inductive Progress where
  | between
  | inside
  | comma
  deriving DecidableEq, Repr

/-- Where the reading stands after one more byte, or none if the list ends before it. A parameter
may be followed by one comma, and then by one blank. -/
def Progress.next? : Progress → UInt8 → Option Progress
  | p, b =>
    if isByte b then some .inside
    else match p with
      | .inside => if b = 0x2c then some .comma else if b = 0x20 then some .between else none
      | .comma => if b = 0x20 then some .between else none
      | .between => none

/-- The longest parameter list at the start of a text, from a given progress on. -/
def listFrom : Progress → Text → Text
  | _, [] => []
  | p, b :: t =>
    match p.next? b with
    | some q => b :: listFrom q t
    | none => []

/-- The longest parameter list at the start of a text. -/
def list (t : Text) : Text := listFrom .between t

/-- The parameters of a list, trimmed, without empty ones. -/
def split (raw : Text) : List Text :=
  ((raw.splitOn 0x2c).map Text.trim).filter fun p => !p.isEmpty

/-- Bytes of a rest parameter's name: letters, digits, `_` and `$`. -/
def isRestByte (b : UInt8) : Bool := Ascii.isAlnum b || b = 0x5f || b = 0x24

/-- The name behind the rest marker, if the whole parameter is a marker and a name. -/
def restName? (p : Text) : Option Text :=
  (p.dropPrefix? "/*...*/").bind fun n =>
    if !n.isEmpty && n.all isRestByte then some n else none

end StubDecl.Parameter
