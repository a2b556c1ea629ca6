import StubDecl.Text.Utf8
import StubDecl.Yaml.Token.Basic

/-!
# Scalars in a YAML stream

The five ways to write a scalar. In quoted and plain scalars a single line end stands for a blank; a
literal scalar keeps its lines, and a folded one joins lines that are not indented further.
Characters are collected with the newest first.
-/

namespace StubDecl.Yaml

namespace Read

/-! ## White space -/

/-- White space inside a scalar: the gaps of the first line, then the first line end and the
further ones, each with the newest first. `none` for the first line end means that all is on one
line. -/
structure Space where
  gaps : List Char := []
  first : Option (List Char) := none
  more : List Char := []

/-- What the white space stands for, the newest first: a single line end is a blank, more are one
less. -/
def Space.text (w : Space) : List Char :=
  match w.first with
  | none => w.gaps
  | some f =>
    if f.head? = some '\n' then (if w.more.isEmpty then [' '] else w.more) else w.more ++ f

/-- Reads white space inside the scalar that starts at `start`. A tab is refused in the indentation
of a continuation line left of `indent`. -/
def space (start : Mark) (indent : Int) : Nat → Space → Read Space
  | 0, w => return w
  | k + 1, w => do
    let x ← head
    if isGap x then
      match w.first with
      | none =>
        skip
        need 1
        space start indent k { w with gaps := x :: w.gaps }
      | some _ =>
        if x = '\t' && (← mark).column < indent then fail start (.unexpected .tabInScalar)
        skip
        need 1
        space start indent k w
    else if isBreak x then
      need 2
      let b ← readBreak
      need 1
      match w.first with
      | none => space start indent k { first := some b }
      | some _ => space start indent k { w with more := b ++ w.more }
    else return w

/-! ## Quoted scalars -/

/-- The value of a hexadecimal digit. -/
def hexDigit? (x : Char) : Option Nat :=
  if x.toNat < 0x80 then Ascii.hexValue? x.toNat.toUInt8 else none

/-- The number that `n` hexadecimal digits spell, which start `k` places further on. -/
def hexNumber? (k n : Nat) : Read (Option Nat) := fun c =>
  .ok ((List.range n).foldlM (fun v i => (hexDigit? (c.get (k + i))).map (v * 16 + ·)) 0, c)

/-- The characters that single letters behind a backslash stand for. -/
def escapes : List (Char × Char) :=
  [('0', '\x00'), ('a', '\x07'), ('b', '\x08'), ('t', '\t'), ('\t', '\t'), ('n', '\n'), ('v', '\x0b'),
    ('f', '\x0c'), ('r', '\r'), ('e', '\x1b'), (' ', ' '), ('"', '"'), ('\'', '\''), ('\\', '\\'),
    ('N', '\u0085'), ('_', '\u00a0'), ('L', '\u2028'), ('P', '\u2029')]

/-- The number of hexadecimal digits behind the letter of a numeric escape. -/
def escapeDigits? (x : Char) : Option Nat :=
  if x = 'x' then some 2 else if x = 'u' then some 4 else if x = 'U' then some 8 else none

/-- The character that the escape here stands for. -/
def escape (start : Mark) : Read Char := do
  let x ← get 1
  match escapes.lookup x, escapeDigits? x with
  | some y, _ =>
    skips 2
    return y
  | none, some n =>
    skips 2
    need n
    match ← hexNumber? 0 n with
    | none => fail start (.missing .hexNumber)
    | some v =>
      if (0xd800 ≤ v && v ≤ 0xdfff) || v > 0x10ffff then fail start (.unexpected .noCharacter)
      skips n
      return Char.ofNat v
  | none, none => fail start (.unexpected .unknownEscape)

/-- The visible characters of a quoted scalar up to white space or the closing quote. The last
component says that an escaped line end was read, after which white space is dropped. -/
def quotedWord (start : Mark) (single : Bool) : Nat → List Char → Read (List Char × Bool)
  | 0, acc => return (acc, false)
  | k + 1, acc => do
    let x ← head
    if isWordEnd x then return (acc, false)
    else if single && x = '\'' then
      if (← get 1) = '\'' then
        skips 2
        need 2
        quotedWord start single k ('\'' :: acc)
      else return (acc, false)
    else if !single && x = '"' then return (acc, false)
    else if !single && x = '\\' then
      if isBreak (← get 1) then
        need 3
        skip
        let _ ← readBreak
        return (acc, true)
      else
        let y ← escape start
        need 2
        quotedWord start single k (y :: acc)
    else
      skip
      need 2
      quotedWord start single k (x :: acc)

/-- The rest of a quoted scalar behind its opening quote. -/
def quotedRest (start : Mark) (single : Bool) : Nat → List Char → Read (List Char)
  | 0, acc => return acc
  | k + 1, acc => do
    need 4
    if ← atMarker then fail start (.unexpected .documentMarker)
    if (← head) = endMark then fail start (.unexpected .streamEnd)
    let (acc, escaped) ← quotedWord start single (← bound) acc
    need 1
    if (← head) = (if single then '\'' else '"') then
      skip
      return acc
    else
      let w ← space start 0 (← bound) { first := if escaped then some [] else none }
      quotedRest start single k (w.text ++ acc)

/-! ## Plain scalars -/

/-- Characters that end a plain scalar in a flow collection. -/
def isFlowIndicator (x : Char) : Bool := [',', '?', '[', ']', '\x7b', '\x7d'].contains x

/-- The visible characters of a plain scalar up to white space or its end. -/
def plainWord (flow : Bool) : Nat → List Char → Read (List Char)
  | 0, acc => return acc
  | k + 1, acc => do
    let x ← head
    if isWordEnd x || (x = ':' && isWordEnd (← get 1)) || (flow && isFlowIndicator x) then return acc
    else
      skip
      need 2
      plainWord flow k (x :: acc)

/-- A plain scalar from here on. `acc` is what has been read, `w` the white space behind it, which
belongs to the scalar only if something follows it. The last component of the result says whether the
scalar ended behind a line end. -/
def plainRest (start : Mark) (flow : Bool) (indent : Int) : Nat → List Char → Space → Read (List Char × Bool)
  | 0, acc, w => return (acc, w.first.isSome)
  | k + 1, acc, w => do
    need 4
    if ← atMarker then return (acc, w.first.isSome)
    else if (← head) = '#' then return (acc, w.first.isSome)
    else
      let word ← plainWord flow (← bound) []
      let (acc, w) := if word.isEmpty then (acc, w) else (word ++ w.text ++ acc, {})
      let x ← head
      if isGap x || isBreak x then
        need 1
        let w ← space start indent (← bound) w
        if !flow && (← mark).column < indent then return (acc, w.first.isSome)
        else plainRest start flow indent k acc w
      else return (acc, w.first.isSome)

/-! ## Block scalars -/

/-- How the line ends at the end of a block scalar are treated. -/
inductive Chomping where
  | strip
  | clip
  | keep
  deriving DecidableEq

/-- The chomping indicator here. -/
def chomping? : Read (Option Chomping) := do
  let x ← head
  if x = '+' then
    skip
    return some .keep
  else if x = '-' then
    skip
    return some .strip
  else return none

/-- The indentation indicator here; 0 means that there is none. -/
def indentIndicator (start : Mark) : Read Nat := do
  let x ← head
  if x = '0' then fail start (.unexpected .zeroIndent)
  else if x.isDigit then
    skip
    return x.toNat - 48
  else return 0

/-- The header of a block scalar: chomping and indentation indicators in either order. -/
def blockHeader (start : Mark) : Read (Chomping × Nat) := do
  need 1
  match ← chomping? with
  | some ch =>
    need 1
    return (ch, ← indentIndicator start)
  | none =>
    let n ← indentIndicator start
    if n = 0 then return (.clip, 0)
    else
      need 1
      return ((← chomping?).getD .clip, n)

/-- Past the rest of a line that may only hold a comment. -/
def endLine (start : Mark) : Read PUnit := do
  skipWhile isGap
  if (← head) = '#' then skipLine
  if !isLineEnd (← head) then fail start (.missing .lineEnd)
  skipBreak

/-- Past the blanks that belong to the indentation; `indent` 0 means that it is not yet known. -/
def skipIndent (indent : Nat) : Nat → Read PUnit
  | 0 => pure ⟨⟩
  | k + 1 => do
    if (indent = 0 || (← mark).column < indent) && (← head) = ' ' then
      skip
      need 1
      skipIndent indent k

/-- Indentation and empty lines of a block scalar. `indent` 0 means not yet known. The result has
the widest indentation seen and the line ends passed. -/
def blockBreaks (start : Mark) (indent : Nat) : Nat → Nat → List Char → Read (Nat × List Char)
  | 0, widest, acc => return (widest, acc)
  | k + 1, widest, acc => do
    need 1
    skipIndent indent (← bound)
    let column := (← mark).column
    let x ← head
    if (indent = 0 || column < indent) && x = '\t' then fail start (.unexpected .tabIndent)
    else if isBreak x then
      need 2
      let b ← readBreak
      blockBreaks start indent k (max widest column) (b ++ acc)
    else return (max widest column, acc)

/-- The lines of a block scalar. `first` is the line end before the current line, `more` the ones
of empty lines behind it, `wasGap` whether the line before started with a gap. The result has the
lines and the line ends behind them. -/
def blockLines (start : Mark) (literal : Bool) (indent : Nat) :
    Nat → List Char → List Char → List Char → Bool → Read (List Char × List Char × List Char)
  | 0, acc, first, more, _ => return (acc, first, more)
  | k + 1, acc, first, more, wasGap => do
    let x ← head
    if (← mark).column = indent && x ≠ endMark then
      let joined := if !literal && !wasGap && !isGap x && first.head? = some '\n' then
          (if more.isEmpty then [' '] else more)
        else more ++ first
      let line ← takeWhile fun y => !isLineEnd y
      need 2
      let b ← readBreak
      let (_, more) ← blockBreaks start indent (← bound) 0 []
      blockLines start literal indent k (line.reverse ++ joined ++ acc) b more (isGap x)
    else return (acc, first, more)

/-- The rest of a block scalar behind its indicator, inside a collection that is indented by
`outer`. -/
def blockRest (start : Mark) (literal : Bool) (outer : Int) : Read (List Char) := do
  let (ch, increment) ← blockHeader start
  endLine start
  let given := if increment = 0 then 0 else outer.toNat + increment
  let (widest, more) ← blockBreaks start given (← bound) 0 []
  let indent := if given = 0 then max (max widest (outer + 1).toNat) 1 else given
  let (text, first, more) ← blockLines start literal indent (← bound) [] [] more false
  return match ch with
    | .strip => text
    | .clip => first ++ text
    | .keep => more ++ first ++ text

end Read

namespace Scan

/-- A scalar token with the characters `acc`, the newest first. -/
def pushScalar (start : Mark) (acc : List Char) (style : ScalarStyle) : Scan PUnit :=
  push (.scalar (Text.ofChars acc.reverse) style) start.line

/-- A quoted scalar. -/
def fetchQuoted (single : Bool) : Scan PUnit := do
  saveKey
  allowKey false
  let start ← Read.mark
  Read.skip
  let acc ← Read.quotedRest start single (← Read.bound) []
  pushScalar start acc (if single then .singleQuoted else .doubleQuoted)

/-- A plain scalar. -/
def fetchPlain : Scan PUnit := do
  saveKey
  allowKey false
  let s ← get
  let start := s.at_.mark
  let (acc, broken) ← Read.plainRest start (s.flow > 0) (s.indent + 1) s.at_.bound [] {}
  pushScalar start acc .plain
  if broken then allowKey true

/-- A block scalar. -/
def fetchBlockScalar (literal : Bool) : Scan PUnit := do
  dropKey
  allowKey true
  let s ← get
  let start := s.at_.mark
  Read.skip
  let acc ← Read.blockRest start literal s.indent
  pushScalar start acc (if literal then .literal else .folded)

end Scan

end StubDecl.Yaml
