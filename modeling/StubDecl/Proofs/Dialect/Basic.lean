import StubDecl.Declaration
import StubDecl.Proofs.Line.Shape
import StubDecl.Proofs.Scan.Run

/-!
# Class files

A class file as its author thinks of it: a class with an optional parent and description, and its
members in any order, the methods with their parameters and types, the variables on one line or as a
literal of several. The types of this module carry what makes them writable: names are words, the
names of parameters differ, and lines that are copied verbatim are trimmed.

* `ClassFile.write`: the file in the stub dialect;
* `ClassFile.declaration`: the class declaration that such a file stands for, said without the
  reader;
* `ClassFile.summary`: what the file declares.
-/

namespace StubDecl.Dialect

/-! ## Names, types and copied lines -/

/-- A name: letters and digits. -/
structure Name where
  text : Text
  isWord : IsWord text := by decide
  deriving DecidableEq

/-- A type as the source writes it: letters, digits, dots and brackets. -/
structure SourceType where
  text : Text
  ne_nil : text ≠ [] := by decide
  isType : text.all DocTag.isTypeByte = true := by decide
  deriving DecidableEq

theorem SourceType.isTypeByte (t : SourceType) : ∀ b ∈ t.text, DocTag.isTypeByte b = true :=
  List.all_eq_true.mp t.isType

/-- A line of a class description, an asterisk behind a blank and a text, which may be empty. -/
structure DescriptionLine where
  text : Text
  isLine : IsLine text := by decide
  starred : text = (" *" : Text) ∨ text.startsWith " * " = true := by decide
  deriving DecidableEq

/-- A variable that is declared on one line, as in `var tempo = 120;`. -/
structure VariableLine where
  text : Text
  isLine : IsLine text := by decide
  isVar : text.startsWith "var " = true := by decide
  notOpen : text.endsWith "\x7b" = false := by decide
  noTag : 0x40 ∉ text := by decide
  deriving DecidableEq

/-- A line inside a literal. -/
structure EntryLine where
  text : Text
  isLine : IsLine text := by decide
  notTrash : Line.isTrash text = false := by decide
  notEnd : text.endsWith "\x7d;" = false := by decide
  deriving DecidableEq

/-! ## Members -/

/-- A parameter, with its type if that is documented. -/
structure Param where
  name : Name
  type? : Option SourceType := none
  deriving DecidableEq

/-- A line of a doc block that gives the type of a parameter, or of the result. -/
structure Tag where
  param? : Option Name
  type : SourceType
  deriving DecidableEq

/-- The tags of a method: one for every type that is documented. -/
def documented (params : List Param) (returns? : Option SourceType) : List Tag :=
  params.filterMap (fun p => p.type?.map (⟨some p.name, ·⟩)) ++
    (returns?.map (⟨none, ·⟩)).toList

/-- A method. Its parameters have different names; a rest parameter comes last and has no type of its
own. The tags may stand in any order. -/
structure Method where
  name : Name
  params : List Param := []
  rest? : Option Name := none
  returns? : Option SourceType := none
  tags : List Tag := documented params returns?
  nodup : (params.map (·.name)).Nodup := by decide
  perm : tags.Perm (documented params returns?) := by decide

/-- A variable whose value takes several lines. -/
structure Literal where
  name : Name
  entries : List EntryLine := []

/-- A member of a class file. -/
inductive Member where
  | method (m : Method)
  | single (v : VariableLine)
  | literal (x : Literal)

/-- A class file. -/
structure ClassFile where
  name : Name
  parent? : Option Name := none
  description? : Option (List DescriptionLine) := none
  members : List Member := []

/-! ## Writing -/

/-- The line of a tag. -/
def Tag.line (t : Tag) : Text :=
  match t.param? with
  | some n => " * @param \x7b" ++ t.type.text ++ "\x7d " ++ n.text
  | none => " * @return \x7b" ++ t.type.text ++ "\x7d value"

/-- A rest parameter as it stands between the parentheses. -/
def Name.restText (r : Name) : Text := "/*...*/" ++ r.text

namespace Method

/-- The doc block, if any type is documented. -/
def docLines (m : Method) : List Text :=
  if m.tags = [] then [] else docComment (m.tags.map Tag.line)

/-- The parameters as they stand between the parentheses. -/
def paramTexts (m : Method) : List Text :=
  m.params.map (·.name.text) ++ (m.rest?.map Name.restText).toList

/-- The line that gives the class `c` the method. -/
def codeLine (c : Name) (m : Method) : Text :=
  c.text ++ ".prototype." ++ m.name.text ++ " = function(" ++ Text.joinWith ", " m.paramTexts ++
    ") \x7b\x7d;"

end Method

/-- The lines of a literal. -/
def Literal.lines (x : Literal) : List Text :=
  ("var " ++ x.name.text ++ " = \x7b" : Text) :: (x.entries.map (·.text) ++ [("\x7d;" : Text)])

/-- The lines of a member of the class `c`. -/
def Member.lines (c : Name) : Member → List Text
  | .method m => m.docLines ++ [m.codeLine c]
  | .single v => [v.text]
  | .literal x => x.lines

namespace ClassFile

/-- The lines of the description. -/
def docLines (f : ClassFile) : List Text :=
  (f.description?.map fun ls => docComment (ls.map (·.text))).getD []

/-- The line that declares the class. -/
def classLine (f : ClassFile) : Text := "function " ++ f.name.text ++ "() \x7b\x7d"

/-- The line that names the parent. -/
def parentLine (f : ClassFile) (p : Name) : Text :=
  f.name.text ++ ".prototype = new " ++ p.text ++ "();"

/-- The lines of a class file. -/
def lines (f : ClassFile) : List Text :=
  f.docLines ++ f.classLine :: ((f.parent?.map f.parentLine).toList ++
    f.members.flatMap (Member.lines f.name))

/-- A class file in the stub dialect, with or without a newline behind its last line. -/
def write (f : ClassFile) (final : Bool) : Text :=
  Text.joinWith "\n" f.lines ++ if final then "\n" else ""

end ClassFile

/-! ## What a class file stands for -/

section Declaration

variable (table : TypeTable) (y : Style)

/-- The declaration of a parameter. -/
def Param.declaration (p : Param) : Text :=
  match p.type? with
  | some t => p.name.text ++ "?: " ++ table.normalize t.text
  | none => p.name.text ++ "?"

/-- The declaration of a rest parameter. -/
def Name.restDeclaration (r : Name) : Text := "..." ++ r.text ++ ": " ++ y.restType

/-- A line behind a margin. -/
def indented (margin l : Text) : Text := margin ++ l ++ "\n"

namespace Method

/-- The declared parameters. -/
def paramDeclarations (m : Method) : List Text :=
  m.params.map (Param.declaration table) ++
    (m.rest?.map (Name.restDeclaration y)).toList

/-- The declared result: `void` for a method that documents none, or whose type stands for nothing. -/
def resultDeclaration (m : Method) : Text :=
  match m.returns?.map (fun t => table.normalize t.text) with
  | some (b :: t) => b :: t
  | _ => "void"

/-- The declaration of a method: its doc block and its signature, behind the margin. -/
def declaration (m : Method) : Text :=
  m.docLines.flatMap (indented (Text.blanks y.indent)) ++ Text.blanks y.indent ++ m.name.text ++
    "(" ++ Text.joinWith ", " (m.paramDeclarations table y) ++ "): " ++ m.resultDeclaration table ++
    ";\n\n"

end Method

namespace Member

/-- What a member puts inside the braces of the class. -/
def inside : Member → Text
  | .method m => m.declaration table y
  | _ => ""

/-- What a member puts behind the class: variables are copied. -/
def behind : Member → Text
  | .method _ => ""
  | .single v => "\n" ++ v.text ++ "\n"
  | .literal x => "\n" ++ Text.joinWith "\n" x.lines ++ "\n"

/-- Whether a member is a method. -/
def isMethod : Member → Bool
  | .method _ => true
  | _ => false

end Member

namespace ClassFile

/-- The opening line of the class declaration. -/
def heading (f : ClassFile) : Text :=
  match f.parent? with
  | some p => "declare class " ++ f.name.text ++ " extends " ++ p.text ++ " \x7b"
  | none => "declare class " ++ f.name.text ++ " \x7b"

/-- The class declaration of a file: the methods inside the braces, the variables behind them, both
in source order. -/
def declaration (f : ClassFile) : Text :=
  f.docLines.flatMap (indented "") ++ indented "" f.heading ++
    f.members.flatMap (Member.inside table y) ++ "\x7d\n" ++ f.members.flatMap Member.behind ++ "\n"

/-- What a file declares. -/
def summary (f : ClassFile) (path : Text) : Summary where
  path := path
  className := f.name.text
  parent := (f.parent?.map (·.text)).getD ""
  methodCount := Int64.ofNat (f.members.countP Member.isMethod)
  variableCount := Int64.ofNat (f.members.countP (!·.isMethod))

end ClassFile

end Declaration

end StubDecl.Dialect
