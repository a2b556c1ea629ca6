import StubDecl.Text.Basic

/-!
# Doc tags

A doc tag is `@param` or `@return`, a blank, a type after an opening brace, and a name:
`@param {int} bars`. The closing brace and the blank after it may be missing. The type takes as
many bytes as it can, but gives some back if there would be no name left otherwise; in the same
way the closing brace becomes the name of `@return {int}` at the end of a line.
-/

namespace StubDecl

/-- The two tags that carry a type. -/
inductive DocTag.Kind where
  | param
  | returns
  deriving DecidableEq, Repr

/-- A doc tag: its type as written, and the word after it. -/
structure DocTag where
  kind : DocTag.Kind
  type : Text
  name : Text
  deriving DecidableEq, Repr

namespace DocTag

/-- The word that introduces a tag, after the `@`. -/
def Kind.word : Kind → Text
  | .param => "param"
  | .returns => "return"

/-- The bytes of a type: letters, digits, brackets and dots. -/
def isTypeByte (b : UInt8) : Bool := Ascii.isAlnum b || b = 0x5b || b = 0x5d || b = 0x2e

/-- The bytes of a name: letters, digits, braces, the backtick and the at sign. -/
def isNameByte (b : UInt8) : Bool :=
  Ascii.isAlnum b || b = 0x60 || b = 0x7b || b = 0x7d || b = 0x40

/-- What may be left of `t` after an optional byte `b`, the byte being taken if it can be. -/
def optional (b : UInt8) : Text → List Text
  | [] => [[]]
  | c :: t => if c = b then [t, c :: t] else [c :: t]

/-- The name at the start of a text. -/
def word? (t : Text) : Option Text :=
  let n := t.takeWhile isNameByte
  if n.isEmpty then none else some n

/-- The name after a type: behind a closing brace and a blank if there are such. -/
def name? (t : Text) : Option Text :=
  ((optional 0x7d t).flatMap (optional 0x20)).findSome? word?

/-- The type and the name that a text starts with; of all ways to cut, the longest type wins. -/
def typeAndName? (t : Text) : Option (Text × Text) :=
  let n := (t.takeWhile isTypeByte).length
  (List.range n).findSome? fun k => (name? (t.drop (n - k))).map fun w => (t.take (n - k), w)

/-- The tag of kind `k` whose text, after the `@`, is `t`. -/
def ofKind? (k : Kind) (t : Text) : Option DocTag :=
  (t.dropPrefix? (k.word ++ " \x7b")).bind fun r =>
    (typeAndName? r).map fun (ty, n) => ⟨k, ty, n⟩

/-- The first doc tag of a line. -/
def parse : Text → Option DocTag
  | [] => none
  | b :: t =>
    if b = 0x40 then ofKind? .returns t <|> ofKind? .param t <|> parse t
    else parse t

end DocTag

end StubDecl
