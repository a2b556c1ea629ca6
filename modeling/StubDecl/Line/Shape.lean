import StubDecl.Line.DocTag
import StubDecl.Line.Parameter

/-!
# Shapes of lines

`Line.classify` says what a single line of a stub file is. The shapes are tried in a fixed order
and the first that fits wins: the opening of a literal comes before the declarations, so that
`Foo = {` opens a block, and the end of a literal comes last, since a method line may also end in
`};`.

* `Line.isTrash`: lines that carry no information (empty lines, `/* ` comments, prototype
  properties with a plain value);
* `Line.isDocEnd`, `Line.isCodeEnd`: what closes an open doc block or literal.
-/

namespace StubDecl

/-- What a line is, with the names it carries. -/
inductive LineShape where
  | unknown
  | trash
  | docStart
  | docEnd
  | docTag (tag : DocTag)
  | codeStart
  | codeEnd
  | extension (parent : Text)
  | classLine (name : Text)
  | methodLine (name params : Text)
  | variableLine
  deriving DecidableEq, Repr

namespace LineShape

/-- The names of the shapes in the order of their codes. -/
def names : List String :=
  ["none", "trash", "doc-start", "doc-end", "doc-tag", "code-start", "code-end", "extends",
    "class", "method", "variable"]

/-- The position of a shape in `names`. -/
def code : LineShape → Nat
  | .unknown => 0
  | .trash => 1
  | .docStart => 2
  | .docEnd => 3
  | .docTag _ => 4
  | .codeStart => 5
  | .codeEnd => 6
  | .extension _ => 7
  | .classLine _ => 8
  | .methodLine _ _ => 9
  | .variableLine => 10

/-- The name of the shape with a given code. -/
def nameOfCode (n : Int) : String :=
  match n with
  | .ofNat k => names.getD k "invalid"
  | .negSucc _ => "invalid"

/-- The name of a shape. -/
def name (s : LineShape) : String := nameOfCode s.code

end LineShape

namespace Line

/-- The letters and digits at the start of a text and what follows them; none if there are none. -/
def word? (t : Text) : Option (Text × Text) :=
  let w := t.takeWhile Ascii.isAlnum
  if w.isEmpty then none else some (w, t.dropWhile Ascii.isAlnum)

/-- The text after a word and `sep`. -/
def afterWord? (sep t : Text) : Option Text :=
  (word? t).bind fun (_, r) => r.dropPrefix? sep

/-- The blanks at the start of a text dropped. -/
def skipBlanks (t : Text) : Text := t.dropWhile (· = 0x20)

/-- The value word of a prototype property: `V` in `C.prototype.P = V`. -/
def propertyValue? (t : Text) : Option Text := do
  let r ← afterWord? ".prototype." t
  let r ← afterWord? " = " r
  let (v, _) ← word? r
  return v

/-- Whether a line is dropped without further inspection. -/
def isTrash (t : Text) : Bool :=
  t.isEmpty || t.startsWith "/* " ||
    match propertyValue? t with
    | some v => !v.startsWith "function"
    | none => false

/-- Whether a line opens a doc block. -/
def isDocStart (t : Text) : Bool := t.startsWith "/**"

/-- Whether a line closes a doc block. -/
def isDocEnd (t : Text) : Bool := t.startsWith " */"

/-- Whether a doc block opens and closes on this line. -/
def isOneLineDoc (t : Text) : Bool := 3 < t.length && t.endsWith "*/"

/-- Whether a line opens a multi-line literal. -/
def isCodeStart (t : Text) : Bool := t.endsWith "\x7b"

/-- Whether a line closes a multi-line literal. -/
def isCodeEnd (t : Text) : Bool := t.endsWith "\x7d;"

/-- The parent `P` of an extension statement `C.prototype = new P`. -/
def extension? (t : Text) : Option Text := do
  let r ← afterWord? ".prototype = new " t
  let (p, _) ← word? r
  return p

/-- The name of a class line `function C`. -/
def class? (t : Text) : Option Text := do
  let r ← t.dropPrefix? "function "
  let (c, _) ← word? r
  return c

/-- The name and the parameter list of a method line `C.prototype.m = function(params`. -/
def method? (t : Text) : Option (Text × Text) := do
  let r ← afterWord? ".prototype." t
  let (m, r) ← word? r
  let r ← (skipBlanks r).dropPrefix? "="
  let r ← (skipBlanks r).dropPrefix? "function("
  return (m, Parameter.list r)

/-- Whether a line declares a variable. -/
def isVariable (t : Text) : Bool :=
  t.startsWith "var" || afterWord? " = \x7b" t == some []

/-- The shape of a line whose trailing white space has been removed. -/
def classify (t : Text) : LineShape :=
  if isTrash t then .trash
  else if isDocStart t then .docStart
  else if isDocEnd t then .docEnd
  else match DocTag.parse t with
  | some tag => .docTag tag
  | none =>
    if isCodeStart t then .codeStart
    else match extension? t with
    | some p => .extension p
    | none => match class? t with
      | some c => .classLine c
      | none => match method? t with
        | some (m, ps) => .methodLine m ps
        | none =>
          if isVariable t then .variableLine
          else if isCodeEnd t then .codeEnd
          else .unknown

end Line

end StubDecl
