import StubDecl.Yaml.Source

/-!
# Reading a YAML stream

A cursor is a place in a stream with the characters that have been read behind it. The reader asks
for as many characters as it is going to look at (`Read.need`), and each such step may read further
portions of the stream, which is when a fault in one of them shows.
-/

namespace StubDecl.Yaml

/-- A place in a stream. `window` has the characters that have been read and not yet passed, `later`
the portions that have not been read. `fresh` says that a line end has been passed since the last
visible character, `marked` that the window began with a byte order mark when it was last extended.
`bound` exceeds the number of characters of the stream, so that no loop over them takes more steps. -/
structure Cursor where
  window : List Char := []
  later : List (List Char) := []
  fault : Option EncodingProblem := none
  mark : Mark := {}
  fresh : Bool := false
  marked : Bool := false
  bound : Nat
  deriving Repr

namespace Cursor

/-- The start of a stream. -/
def ofStream (s : Stream) : Cursor := { later := s.portions, fault := s.fault, bound := s.size + 16 }

/-- The character `k` places further on. -/
def get (c : Cursor) (k : Nat) : Char := c.window.getD k endMark

/-- The character here. -/
def head (c : Cursor) : Char := c.get 0

/-- Past one character of a line. -/
def skip (c : Cursor) : Cursor :=
  { c with
    window := c.window.drop 1, fresh := c.fresh && isGap c.head
    mark := { c.mark with index := c.mark.index + 1, column := c.mark.column + 1 } }

/-- Past the line end here, with the characters it stands for in a scalar. -/
def readBreak (c : Cursor) : List Char × Cursor :=
  let next := fun (n : Nat) =>
    { c with
      window := c.window.drop n, fresh := true
      mark := { index := c.mark.index + n, line := c.mark.line + 1, column := 0 } }
  match c.window with
  | '\r' :: '\n' :: _ => (['\n'], next 2)
  | x :: _ =>
    if x = '\u2028' || x = '\u2029' then ([x], next 1)
    else if isBreak x then (['\n'], next 1)
    else ([], c)
  | [] => ([], c)

/-- Whether a document marker stands here: three times `x` at the start of a line. -/
def atMarker (x : Char) (c : Cursor) : Bool :=
  c.mark.column = 0 && c.get 0 = x && c.get 1 = x && c.get 2 = x && isWordEnd (c.get 3)

/-- Extends the window by portions until it has more than `n` characters. Behind the last portion
stands the end mark. -/
def extend (n : Nat) (c : Cursor) : List (List Char) → List Char → Except Fault Cursor
  | p :: ps, w =>
    let w := w ++ p
    if (w.drop n).isEmpty then extend n c ps w
    else .ok { c with window := w, later := ps, marked := w.head? = some '\ufeff' }
  | [], w =>
    match c.fault with
    | some p => .error ⟨.encoding p, none⟩
    | none => .ok { c with window := w ++ [endMark], later := [], marked := w.head? = some '\ufeff' }

end Cursor

/-- Steps over a stream; they fail on a fault. -/
abbrev Read := StateT Cursor (Except Fault)

namespace Read

/-- Reads on until `n` characters are at hand. -/
def need (n : Nat) : Read PUnit := fun c =>
  if (c.window.drop (n - 1)).isEmpty then do
    let d ← c.extend (n - 1) c.later c.window
    return (⟨⟩, d)
  else .ok (⟨⟩, c)

/-- Fails with a problem of what starts at `context`. -/
def fail {α : Type} (context : Mark) (p : Problem) : Read α := fun c =>
  .error (.ofToken context c.mark p)

/-- The character here. -/
def head : Read Char := fun c => .ok (c.head, c)

/-- The character `k` places further on. -/
def get (k : Nat) : Read Char := fun c => .ok (c.get k, c)

/-- The place here. -/
def mark : Read Mark := fun c => .ok (c.mark, c)

/-- A number of steps that no loop over the stream exceeds. -/
def bound : Read Nat := fun c => .ok (c.bound, c)

/-- Past one character. -/
def skip : Read PUnit := fun c => .ok (⟨⟩, c.skip)

/-- Past `n` characters. -/
def skips : Nat → Read PUnit
  | 0 => pure ⟨⟩
  | n + 1 => do
    skip
    skips n

/-- Past the line end here, with the characters it stands for. -/
def readBreak : Read (List Char) := fun c => .ok c.readBreak

/-- Past the line end here, if there is one. -/
def skipBreak : Read PUnit := do
  if isBreak (← head) then
    need 2
    let _ ← readBreak

/-- Whether a document marker of either kind stands here. -/
def atMarker : Read Bool := fun c => .ok (c.atMarker '-' || c.atMarker '.', c)

/-- The characters from here on that satisfy `p`. -/
def takeWhile (p : Char → Bool) : Read (List Char) := do
  need 1
  go (← bound) []
where
  /-- One character after the other; `acc` has the newest first. -/
  go : Nat → List Char → Read (List Char)
  | 0, acc => pure acc.reverse
  | k + 1, acc => do
    let x ← head
    if p x then
      skip
      need 1
      go k (x :: acc)
    else return acc.reverse

/-- Past the characters from here on that satisfy `p`. -/
def skipWhile (p : Char → Bool) : Read PUnit := do
  let _ ← takeWhile p

/-- Past the rest of the line. -/
def skipLine : Read PUnit := skipWhile fun x => !isLineEnd x

/-- On to the character with a number. -/
def skipTo (index : Nat) : Read PUnit := do go (← bound)
where
  /-- One character or line end after the other. -/
  go : Nat → Read PUnit
  | 0 => pure ⟨⟩
  | k + 1 => do
    if (← mark).index < index then
      need 1
      if isBreak (← head) then skipBreak else skip
      go k

/-- How far ahead comments are looked for. -/
def commentReach : Nat := 512

/-- The distance of a comment from here with only gaps between. -/
def lineCommentAhead : Nat → Nat → Read (Option Nat)
  | 0, _ => return none
  | k + 1, n => do
    need (n + 1)
    let x ← get n
    if isGap x then lineCommentAhead k (n + 1)
    else return if x = '#' then some n else none

/-- The distance of a comment from here with only gaps and line ends between. The line ends are
those of one byte. -/
def commentAhead : Nat → Nat → Read (Option Nat)
  | 0, _ => return none
  | k + 1, n => do
    need (n + 1)
    let x ← get n
    if isGap x || x = '\n' || x = '\r' then commentAhead k (n + 1)
    else if isBreak x then
      if 0 < k then need (n + 2)
      return none
    else return if x = '#' then some n else none

/-- Past a comment behind what stands on this line. -/
def skipLineComment : Read PUnit := do
  match ← lineCommentAhead commentReach 0 with
  | none => pure ⟨⟩
  | some n =>
    skipTo ((← mark).index + n)
    skipLine

/-- Past the comment here and the comments that follow it with only white space between. -/
def skipComments : Read PUnit := do go (← bound)
where
  /-- One comment after the other. -/
  go : Nat → Read PUnit
  | 0 => pure ⟨⟩
  | k + 1 => do
    skipLine
    let x ← head
    let n? ← (
      if isBreak x && x ≠ '\n' && x ≠ '\r' then do
        need 2
        return none
      else commentAhead (commentReach - 1) 1)
    match n? with
    | none => pure ⟨⟩
    | some n =>
      skipTo ((← mark).index + n)
      go k

end Read

end StubDecl.Yaml
