import StubDecl.Text.Base64
import StubDecl.Text.Letter
import StubDecl.Text.Utf8
import StubDecl.TypeTable
import StubDecl.Yaml.Scalar
import StubDecl.Yaml.Source

/-!
# Writing YAML

Records of texts, numbers, truth values, lists and maps in block style, four blanks a level. A text
is written plain if it can be read back so, else in quotes; a text of several lines is written as a
block; bytes that are no characters are written in base 64.
-/

namespace StubDecl.Yaml

/-- A value of a field. -/
inductive Value where
  | text (t : Text)
  | int (n : Int)
  | bool (b : Bool)
  | texts (ts : List Text)
  | textMap (m : TextMap)
  deriving DecidableEq, Repr

namespace Print

/-- Characters that are written as they are. -/
def isPlainChar (c : Char) : Bool :=
  let n := c.toNat
  n == 0x0a || (0x20 ≤ n && n ≤ 0x7e) || (0xa0 ≤ n && n ≤ 0xd7ff) ||
    (0xe000 ≤ n && n ≤ 0xfffd && n != 0xfeff)

/-- Neighbouring characters. -/
def pairs (cs : List Char) : List (Char × Char) := cs.zip (cs.drop 1)

/-- Whether the first character can start a plain scalar, given the rest. -/
def startsPlain : List Char → Bool
  | [] => true
  | c :: r =>
    let alone := match r with
      | [] => true
      | d :: _ => isGap d
    if ['#', ',', '[', ']', '\x7b', '\x7d', '&', '*', '!', '|', '>', '\'', '"', '%', '@', '\x60'].contains c
    then false
    else !(alone && (c = '?' || c = ':' || c = '-'))

/-- Whether no colon ends a word and no number sign starts one. -/
def hasNoInnerIndicator (cs : List Char) : Bool :=
  cs.getLast? ≠ some ':' &&
    (pairs cs).all fun (a, b) =>
      !(a = ':' && isGap b) && !(b = '#' && (isGap a || isBreak a))

/-- Whether a text holds only characters that are written as they are, and no tab. -/
def isClean (cs : List Char) : Bool := cs.all isPlainChar

/-- Whether a blank stands right before a line end. -/
def hasBlankBeforeBreak (cs : List Char) : Bool :=
  (pairs cs).any fun (a, b) => a = ' ' && isBreak b

/-- Whether a blank stands right behind a line end. -/
def hasBlankAfterBreak (cs : List Char) : Bool :=
  (pairs cs).any fun (a, b) => isBreak a && b = ' '

/-- Whether a text can be written without quotes. -/
def allowsPlain (cs : List Char) : Bool :=
  isClean cs && !cs.any isBreak && cs.head? ≠ some ' ' && cs.getLast? ≠ some ' ' &&
    startsPlain cs && hasNoInnerIndicator cs && cs.take 3 ≠ ['-', '-', '-'] &&
    cs.take 3 ≠ ['.', '.', '.']

/-- Whether a text can be written in single quotes. -/
def allowsSingle (cs : List Char) : Bool :=
  isClean cs && !hasBlankBeforeBreak cs && !hasBlankAfterBreak cs

/-- Whether a text can be written as a block. -/
def allowsBlock (cs : List Char) : Bool :=
  cs.all (fun c => c = '\t' || isPlainChar c) && cs.getLast? ≠ some ' ' && !hasBlankBeforeBreak cs

/-- A number as hexadecimal digits, capitals. -/
def capitalHex (width n : Nat) : List Char :=
  (Text.hexOfNat width n).map fun b => Char.ofNat (Ascii.toUpper b).toNat

/-- A character inside double quotes. With `all`, also the characters are escaped that need not be. -/
def escape (all : Bool) (c : Char) : List Char :=
  let n := c.toNat
  if !all && isPlainChar c && !isBreak c && c ≠ '"' && c ≠ '\\' then [c]
  else '\\' :: match n with
    | 0x00 => ['0']
    | 0x07 => ['a']
    | 0x08 => ['b']
    | 0x09 => ['t']
    | 0x0a => ['n']
    | 0x0b => ['v']
    | 0x0c => ['f']
    | 0x0d => ['r']
    | 0x1b => ['e']
    | 0x22 => ['"']
    | 0x5c => ['\\']
    | 0x85 => ['N']
    | 0xa0 => ['_']
    | 0x2028 => ['L']
    | 0x2029 => ['P']
    | _ =>
      if n ≤ 0xff then 'x' :: capitalHex 2 n
      else if n ≤ 0xffff then 'u' :: capitalHex 4 n
      else 'U' :: capitalHex 8 n

/-- A text in double quotes. All of it is escaped if it starts with a byte order mark. -/
def doubleQuoted (cs : List Char) : List Char :=
  '"' :: cs.flatMap (escape (cs.head? = some '\ufeff')) ++ ['"']

/-- The lines of a text, each behind a line end indented by `indent` blanks. `fresh` says that a
line end has just been written. -/
def indented (indent : Nat) (write : Char → List Char) (fresh : Bool) : List Char → List Char
  | [] => []
  | c :: r =>
    if isBreak c then c :: indented indent write true r
    else (if fresh then List.replicate indent ' ' else []) ++ write c ++ indented indent write false r

/-- A text in single quotes, a quote inside written twice. -/
def singleQuoted (indent : Nat) (cs : List Char) : List Char :=
  '\'' :: indented indent (fun c => if c = '\'' then ['\'', '\''] else [c]) false cs ++ ['\'']

/-- A text as a block. The header has the indentation if the text starts with a blank or a line end,
and says how the line ends at the end are to be read. -/
def block (indent : Nat) (cs : List Char) : List Char :=
  let hint := match cs with
    | c :: _ => if c = ' ' || isBreak c then ['4'] else []
    | [] => []
  let chomp := match cs.reverse with
    | a :: r =>
      if !isBreak a then ['-']
      else match r with
        | [] => ['+']
        | b :: _ => if isBreak b then ['+'] else []
    | [] => ['-']
  let start := match cs with
    | c :: _ => if isBreak c then [] else ['\n']
    | [] => []
  '|' :: hint ++ chomp ++ start ++ indented indent (fun c => [c]) true cs

/-- How a text is written; `plain` says that it is read back as a text without quotes. -/
def scalar (key plain : Bool) (indent : Nat) (cs : List Char) : List Char :=
  if cs.contains '\n' then
    if !key && allowsBlock cs then block indent cs else doubleQuoted cs
  else if !plain || (key && cs.any isBreak) then doubleQuoted cs
  else if allowsPlain cs then cs
  else if allowsSingle cs then singleQuoted indent cs
  else doubleQuoted cs

/-- Characters in lines of 70, each ended, unless there is only one line. -/
def foldLines (t : Text) : Text :=
  if t.length < 70 then t else go t.length t
where
  /-- One line after the other. -/
  go : Nat → Text → Text
  | 0, _ => []
  | k + 1, t => if t.isEmpty then [] else t.take 70 ++ 0x0a :: go k (t.drop 70)

/-- A text as a scalar: a key of a mapping, or content that may take several lines indented by
`indent` blanks. -/
def text (key : Bool) (indent : Nat) (t : Text) : Text :=
  if t.isUtf8 then Text.ofChars (scalar key (readsAsText t) indent t.chars)
  else "!!binary " ++ Text.ofChars (scalar key true indent (foldLines (Base64.encode t)).chars)

/-- Ends a line that is not ended yet. -/
def endLine (t : Text) : Text :=
  if (t.chars.getLast?).any isBreak then t else t ++ "\n"

/-- Whether a text can be a key on the line of its value. -/
def isShortKey (t : Text) : Bool :=
  let size := if t.isUtf8 then t.length else (foldLines (Base64.encode t)).length + 8
  size ≤ 128 && !((t.isUtf8 && t.chars.any isBreak) || (!t.isUtf8 && size > 78))

/-- An entry of a map. A long key is marked and its value has a line of its own. -/
def mapEntry (indent : Nat) (k v : Text) : Text :=
  let margin := Text.blanks indent
  let value := endLine (text false (indent + 4) v)
  if isShortKey k then margin ++ text true (indent + 4) k ++ ": " ++ value
  else margin ++ "? " ++ endLine (text false (indent + 4) k) ++ margin ++ ": " ++ value

/-- The order of keys: letters by their code and behind all else (before it within a row of digits),
rows of digits by their value. -/
def keyLess (a b : List Char) : Bool := go [] a b
where
  /-- Compares behind a common beginning, which is given with its last character first. -/
  go (before : List Char) : List Char → List Char → Bool
  | [], [] => false
  | [], _ :: _ => true
  | _ :: _, [] => false
  | x :: s, y :: t =>
    if x = y then go (x :: before) s t
    else
      let inDigits := before.head?.any isDecimalDigit
      match isLetter x, isLetter y with
      | true, true => x.toNat < y.toNat
      | true, false => inDigits
      | false, true => !inDigits
      | false, false =>
        let start : Int64 := if (x = '0' || y = '0') && ((before.takeWhile isDecimalDigit).any (· ≠ '0'))
          then 1 else 0
        let row := fun (cs : List Char) => cs.takeWhile isDecimalDigit
        let number := fun (cs : List Char) =>
          (row cs).foldl (fun n c => n * 10 + Int64.ofInt ((c.toNat : Int) - 48)) start
        let (m, n) := (number (x :: s), number (y :: t))
        if m ≠ n then m < n
        else if (row (x :: s)).length ≠ (row (y :: t)).length then
          (row (x :: s)).length < (row (y :: t)).length
        else x.toNat < y.toNat

/-- An item of a list. -/
def item (t : Text) : Text := Text.blanks 8 ++ "- " ++ endLine (text false 10 t)

/-- A field of a section. -/
def field (name : Text) (v : Value) : Text :=
  let head := Text.blanks 4 ++ name ++ ":"
  match v with
  | .text t => head ++ " " ++ endLine (text false 8 t)
  | .int n => head ++ " " ++ Text.ofInt n ++ "\n"
  | .bool b => head ++ (if b then (" true\n" : Text) else " false\n")
  | .texts [] => head ++ " []\n"
  | .texts ts => head ++ "\n" ++ ts.flatMap item
  | .textMap [] => head ++ " \x7b\x7d\n"
  | .textMap m =>
    let sorted := m.mergeSort fun p q => !(keyLess q.1.chars p.1.chars)
    head ++ "\n" ++ sorted.flatMap fun (k, v) => mapEntry 8 k v

end Print

/-- A document of sections with fields. -/
def print (sections : List (Text × List (Text × Value))) : Text :=
  sections.flatMap fun (name, fields) =>
    name ++ ":\n" ++ fields.flatMap fun (k, v) => Print.field k v

end StubDecl.Yaml
