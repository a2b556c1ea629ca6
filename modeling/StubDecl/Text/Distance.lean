import StubDecl.Text.Basic

/-!
# Edit distance

The least number of bytes that have to be inserted, deleted or replaced to get from one text to
another, row by row: a row holds the distances from a fixed start of the first text to all starts of
the second.
-/

namespace StubDecl.Text

/-- The entries of a row behind `left`, for one more byte `a` of the first text. The row above starts
with `diagonal`. -/
def extendRow (a : UInt8) : Text → Nat → Nat → List Nat → List Nat
  | b :: t, left, diagonal, up :: row =>
    let here := if a = b then diagonal else min (min left up) diagonal + 1
    here :: extendRow a t here up row
  | _, _, _, _ => []

/-- The row for one more byte of the first text. -/
def nextRow (t : Text) (row : List Nat) (a : UInt8) : List Nat :=
  match row with
  | [] => []
  | d :: above => (d + 1) :: extendRow a t (d + 1) d above

/-- The edit distance of two texts. -/
def distance (s t : Text) : Nat :=
  (s.foldl (nextRow t) (List.range (t.length + 1))).getLastD 0

end StubDecl.Text
