import StubDecl.Stub.Scan

/-!
# Declaration blocks

`Style.render` writes the stubs of one file as a class declaration: the methods inside the braces,
the variables verbatim behind them. `convertFile` goes from the content of a file to its block and
the summary of what it declares.
-/

namespace StubDecl

/-- How declarations are written: the width of the member indentation and the type of rest
parameters. -/
structure Style where
  indent : Nat := 4
  restType : Text := "string[]"
  deriving DecidableEq, Repr

/-- What a file declares. `relPath` is its path below the directory of the run, if there is one. -/
structure Summary where
  path : Text
  relPath : Text := []
  className : Text := []
  parent : Text := []
  methodCount : Int64 := 0
  variableCount : Int64 := 0
  deriving DecidableEq, Repr

namespace Style

/-- The style for given settings: a negative indentation is none, and rest parameters without a
type are arrays of strings. -/
def ofSettings (indent : Int) (restType : Text) : Style :=
  { indent := indent.toNat, restType := if restType.isEmpty then "string[]" else restType }

/-- The indentation of members. -/
def margin (y : Style) : Text := Text.blanks y.indent

/-- The opening line of a class declaration. -/
def classSignature (s : Stub) : Text :=
  if s.parent.isEmpty then "declare class " ++ s.className ++ " \x7b"
  else "declare class " ++ s.className ++ " extends " ++ s.parent ++ " \x7b"

/-- A parameter in a signature. Every parameter is optional but a rest parameter; one without a
documented type has none. -/
def parameter (y : Style) (types : TextMap) (p : Text) : Text :=
  match Parameter.restName? p with
  | some n => "..." ++ n ++ ": " ++ y.restType
  | none =>
    match types.get? p with
    | some t => p ++ "?: " ++ t
    | none => p ++ "?"

/-- Parameters and result of a method. -/
def signature (y : Style) (s : Stub) : Text :=
  "(" ++ Text.joinWith ", " (s.params.map (y.parameter s.paramTypes)) ++ "): " ++
    (if s.returnType.isEmpty then TypeTable.void else s.returnType)

/-- Lines, each behind the margin and followed by a newline. -/
def docBlock (margin : Text) (lines : List Text) : Text :=
  lines.flatMap fun l => margin ++ l ++ "\n"

/-- A method with its doc block. -/
def method (y : Style) (s : Stub) : Text :=
  docBlock y.margin s.docLines ++ y.margin ++ s.methodName ++ y.signature s ++ ";\n\n"

/-- The closing brace of the class, unless it has been written. -/
def closing (closed : Bool) : Text := if closed then [] else "\x7d\n"

/-- The members of the class `name` and what follows it. `closed` says whether the closing brace
of the class has been written. -/
def members (y : Style) (file name : Text) (closed : Bool) : List Stub → Outcome Text
  | [] => .ok (closing closed ++ "\n")
  | s :: ss =>
    match s.kind with
    | .classDecl =>
      .error ((Scanner.defect .duplicateClass file s.line (Text.joinWith "\n" s.codeLines)).withHint
        (file ++ " already declares class " ++ name))
    | .methodDecl => (members y file name closed ss).map (y.method s ++ ·)
    | .variableDecl =>
      (members y file name true ss).map
        (closing closed ++ "\n" ++ Text.joinWith "\n" s.codeLines ++ "\n" ++ ·)
    | .unknown =>
      .error (Scanner.defect .orphanDoc file s.line (Text.joinWith "\n" s.docLines))

/-- The declaration block of a file. -/
def render (y : Style) (file : Text) : List Stub → Outcome Text
  | [] => .error (Scanner.defect .missingClass file 0 [])
  | c :: ss =>
    if c.kind.isClass then
      (y.members file c.className false ss).map
        (docBlock [] c.docLines ++ classSignature c ++ "\n" ++ ·)
    else .error (Scanner.defect .missingClass file c.line (Text.joinWith "\n" c.codeLines))

end Style

/-- Class and parent name after one more stub: those of the first class that has a name. -/
def addClassName (names : Text × Text) (s : Stub) : Text × Text :=
  if s.kind.isClass && names.1.isEmpty then (s.className, s.parent) else names

/-- What the stubs of a file declare. -/
def summarize (file : Text) (stubs : List Stub) : Summary :=
  let (name, parent) := stubs.foldl addClassName ([], [])
  { path := file
    className := name
    parent := parent
    methodCount := Int64.ofNat (stubs.countP (·.kind.isMethod))
    variableCount := Int64.ofNat (stubs.countP (·.kind.isVariable)) }

/-- The declaration block and the summary of a file. -/
def convertFile (m : TypeTable) (y : Style) (file content : Text) : Outcome (Text × Summary) := do
  let stubs ← assemble m file content
  let block ← y.render file stubs
  return (block, summarize file stubs)

end StubDecl
