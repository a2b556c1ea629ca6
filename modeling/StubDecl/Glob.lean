import StubDecl.Text.Utf8

/-!
# Path patterns

Patterns select slash separated paths. `*` stands for any characters of one component, `?` for one
character, `[...]` for one character of a class, `\x7b...,...\x7d` for one of several alternatives, and
`**` as a whole component for any number of components. A backslash takes the meaning off the
character behind it.

The matcher goes through pattern and path side by side and remembers the last `*` and the last `**`
to come back to. `Glob.accepts` is false for a malformed pattern.
-/

namespace StubDecl.Glob

/-- The first character of a text by its code, and how many bytes it has. A stray byte counts as
U+FFFD, and so does the end of the text. -/
def charOf : Text → Nat × Nat
  | [] => (0xfffd, 0)
  | b :: t =>
    match Text.charAt? b t with
    | some (c, n) => (c.toNat, n + 1)
    | none => (0xfffd, 1)

/-! ## Classes and alternatives -/

/-- Where a byte first occurs outside of escapes. -/
def findUnescaped (b : UInt8) : Text → Option Nat
  | [] => none
  | 0x5c :: _ :: t => (findUnescaped b t).map (· + 2)
  | c :: t => if c = b && c ≠ 0x5c then some 0 else (findUnescaped b t).map (· + 1)

/-- Where the brace closes that opened before this text, `depth` braces being open. -/
def findClosing (depth : Nat) : Text → Option Nat
  | [] => none
  | 0x5c :: _ :: t => (findClosing depth t).map (· + 2)
  | 0x7b :: t => (findClosing (depth + 1) t).map (· + 1)
  | 0x7d :: t => if depth ≤ 1 then some 0 else (findClosing (depth - 1) t).map (· + 1)
  | _ :: t => (findClosing depth t).map (· + 1)

/-- Where the next comma outside of inner braces is. -/
def findComma (depth : Int) : Text → Option Nat
  | [] => none
  | 0x5c :: _ :: t => (findComma depth t).map (· + 2)
  | 0x7b :: t => (findComma (depth + 1) t).map (· + 1)
  | 0x7d :: t => (findComma (depth - 1) t).map (· + 1)
  | c :: t => if c = 0x2c && depth = 1 then some 0 else (findComma depth t).map (· + 1)

/-- The alternatives that commas divide. -/
def alternatives : Nat → Text → List Text
  | 0, t => [t]
  | k + 1, t =>
    match findComma 1 t with
    | some i => t.take i :: alternatives k (t.drop (i + 1))
    | none => [t]

/-- Whether the classes, alternatives and escapes of a pattern are complete. -/
def isWellFormed (depth : Nat) : Nat → Text → Bool
  | _, [] => depth = 0
  | 0, _ => false
  | k + 1, 0x5c :: t =>
    match t with
    | [] => false
    | _ :: t => isWellFormed depth k t
  | k + 1, 0x5b :: t =>
    let u := match t with
      | 0x5e :: u => u
      | 0x21 :: u => u
      | u => u
    match u with
    | [] => false
    | 0x5d :: _ => false
    | u =>
      match findUnescaped 0x5d u with
      | some i => isWellFormed depth k (u.drop (i + 1))
      | none => false
  | k + 1, 0x7b :: t => isWellFormed (depth + 1) k t
  | k + 1, 0x7d :: t => if depth = 0 then false else isWellFormed (depth - 1) k t
  | k + 1, _ :: t => isWellFormed depth k t

/-- Goes through the members of a class up to one that the character `c` belongs to. `last` is the
member before, from which a range may start; the greatest code stands for none. The result has what
is left of the pattern. -/
def inClass (c : Nat) : Nat → Nat → Text → Bool × Text
  | 0, _, t => (false, t)
  | k + 1, last, t =>
    match t with
    | [] => (false, [])
    | 0x5d :: r => (false, 0x5d :: r)
    | t =>
      let (m, w) := charOf t
      let u := t.drop w
      if last < 0x10ffff && m = 0x2d && !u.isEmpty && u.head? ≠ some 0x5d then
        let u := if u.head? = some 0x5c then u.drop 1 else u
        let (high, w) := charOf u
        if last ≤ c && c ≤ high then (true, u.drop w) else inClass c k 0x10ffff (u.drop w)
      else
        let (m, u) := if m = 0x5c then ((charOf u).1, u.drop (charOf u).2) else (m, u)
        if m = c then (true, u) else inClass c k m u

/-- How a class compares with a character. -/
inductive ClassResult where
  | malformed
  /-- The character is not in the class; with what is left of the pattern. -/
  | no (rest : Text)
  /-- The character is in the class; with what follows it. -/
  | yes (rest : Text)

/-- Compares the class behind an opening bracket with the character `c`. -/
def compareClass (c : Nat) (t : Text) : ClassResult :=
  let (negated, u) := match t with
    | 0x21 :: u => (true, u)
    | 0x5e :: u => (true, u)
    | u => (false, u)
  if u.isEmpty || u.head? = some 0x5d then .malformed
  else
    let (found, rest) := inClass c u.length 0x10ffff u
    if found = negated then (if rest.isEmpty then .malformed else .no rest)
    else match findUnescaped 0x5d rest with
      | some i => .yes (rest.drop (i + 1))
      | none => .malformed

/-- Whether what is left of a pattern can stand for nothing; `none` if it is malformed. -/
def matchesNothing : Nat → Text → Option Bool
  | 0, _ => none
  | k + 1, t =>
    let empty : List Text := ["", "*", "**", "/**", "**/", "/**/"]
    if empty.contains t then some true
    else match t with
      | 0x7b :: u =>
        match findClosing 1 u with
        | none => none
        | some i =>
          let rest := u.drop (i + 1)
          ((alternatives u.length (u.take i)).findSome? fun a =>
            match matchesNothing k (a ++ rest) with
            | some false => none
            | v => some v).getD (some false)
      | t => if isWellFormed 0 t.length t then some false else none

/-! ## Matching -/

/-- A state of the matcher: the places reached in pattern and path, and the places to come back to
for the last `*` and the last `**`. `fresh` says that a component starts here. -/
structure State where
  pattern : Text
  path : Text
  inPattern : Nat := 0
  inPath : Nat := 0
  star : Option (Nat × Nat) := none
  deep : Option (Nat × Nat) := none
  fresh : Bool := true

/-- What a step of the matcher leads to. -/
inductive Step where
  | next (s : State)
  /-- `none` means that the pattern is malformed. -/
  | verdict (v : Option Bool)
  /-- One of several ways to go on, the first that decides counting. -/
  | branch (ss : List State)

/-- The place behind the next slash of a path. -/
def afterSlash (path : Text) (i : Nat) : Option Nat :=
  ((path.drop i).findIdx? (· = 0x2f)).map (i + · + 1)

/-- Comes back to the last `*` unless that would go over a slash, else to the last `**`. -/
def State.retreat (s : State) : Step :=
  let fail :=
    let rest := s.pattern.drop s.inPattern
    Step.verdict (if rest.isEmpty || isWellFormed 0 rest.length rest then some false else none)
  let toDeep := match s.deep with
    | some (p, i) =>
      match afterSlash s.path i with
      | some j => .next { s with inPattern := p, inPath := j, deep := some (p, j), fresh := true }
      | none => fail
    | none => fail
  match s.star with
  | some (p, i) =>
    let (c, w) := charOf (s.path.drop i)
    if c ≠ 0x2f then
      .next { s with inPattern := p, inPath := i + w, star := some (p, i + w), fresh := false }
    else toDeep
  | none => toDeep

/-- Compares the pattern from `i` on, where a character stands for itself, with the path. -/
def State.literal (s : State) (i : Nat) : Step :=
  let (p, pw) := charOf (s.pattern.drop i)
  let (c, cw) := charOf (s.path.drop s.inPath)
  if p = c then
    .next { s with inPattern := i + pw, inPath := s.inPath + cw, fresh := p = 0x2f }
  else
    let escaped := 0 < i && s.pattern[i - 1]? = some 0x5c
    State.retreat { s with inPattern := if escaped then i - 1 else i }

/-- One step of the matcher, the path not being at its end. -/
def State.step (s : State) : Step :=
  match s.pattern.drop s.inPattern with
  | [] => s.retreat
  | 0x2a :: t =>
    let i := s.inPattern + 1
    match t with
    | 0x2a :: u =>
      if s.fresh && u.isEmpty then .verdict (some true)
      else if s.fresh && u.head? = some 0x2f then
        .next { s with inPattern := i + 2, deep := some (i + 2, s.inPath), star := none }
      else .next { s with inPattern := i + 1, star := some (i + 1, s.inPath), fresh := false }
    | _ => .next { s with inPattern := i, star := some (i, s.inPath), fresh := false }
  | 0x3f :: _ =>
    let (c, w) := charOf (s.path.drop s.inPath)
    if c = 0x2f then State.retreat { s with fresh := false }
    else .next { s with inPattern := s.inPattern + 1, inPath := s.inPath + w, fresh := false }
  | 0x5b :: t =>
    let (c, w) := charOf (s.path.drop s.inPath)
    match compareClass c t with
    | .malformed => .verdict none
    | .no rest =>
      State.retreat { s with inPattern := s.pattern.length - rest.length, fresh := false }
    | .yes rest =>
      .next { s with inPattern := s.pattern.length - rest.length, inPath := s.inPath + w, fresh := false }
  | 0x7b :: t =>
    match findClosing 1 t with
    | none => .verdict none
    | some i =>
      let before := s.pattern.take s.inPattern
      let rest := t.drop (i + 1)
      .branch ((alternatives t.length (t.take i)).map fun a =>
        { s with pattern := before ++ a ++ rest, fresh := true })
  | 0x5c :: t => if t.isEmpty then .verdict none else s.literal (s.inPattern + 1)
  | _ => s.literal s.inPattern

/-- Runs the matcher; `none` means that the pattern is malformed. -/
def State.run : Nat → State → Option Bool
  | 0, _ => none
  | k + 1, s =>
    if s.inPath < s.path.length then
      match s.step with
      | .next t => t.run k
      | .verdict v => v
      | .branch ss =>
        (ss.findSome? fun t =>
          match t.run k with
          | some false => none
          | v => some v).getD (some false)
    else
      let rest := s.pattern.drop s.inPattern
      matchesNothing (rest.length + 1) rest

/-- Whether a path matches a pattern. Each `*` is left at most once for every place in the path, and
that for every place of the last `**`, which bounds the number of steps. -/
def accepts (pattern path : Text) : Bool :=
  let p := pattern.length + 2
  let n := path.length + 2
  (State.run (p * p * p * n * n) { pattern := pattern, path := path }) = some true

/-- Whether a path matches one of several patterns. -/
def acceptsAny (patterns : List Text) (path : Text) : Bool := patterns.any fun p => accepts p path

end StubDecl.Glob
