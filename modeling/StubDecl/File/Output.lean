import StubDecl.File.Disk

/-!
# The declaration file

The file that declarations go to starts with an optional header and grows block by block. It is
emptied when it is opened.
-/

namespace StubDecl

/-- An open declaration file: its place on the disk and what has been written to it. -/
structure OutputFile where
  place : List Text
  text : Text
  deriving DecidableEq, Repr

namespace OutputFile

/-- The header as it is written: with a line end behind it unless it is empty or has one. -/
def headerText (header : Text) : Text :=
  if header.isEmpty || header.getLast? = some 0x0a then header else header ++ "\n"

/-- Opens a declaration file and makes the directories it lies in. -/
def create (d : Disk) (path header : Text) : Outcome (Disk × OutputFile) := do
  let d ← d.makeDirs (Path.parent path)
  let at_ ← d.placeForWriting path
  let f : OutputFile := ⟨at_, headerText header⟩
  return (d.withLeaf at_ (.file f.text), f)

/-- The file with a block behind what it holds. -/
def append (f : OutputFile) (block : Text) : OutputFile := { f with text := f.text ++ block }

/-- The disk with the present text of the file. -/
def flush (f : OutputFile) (d : Disk) : Disk := d.withLeaf f.place (.file f.text)

end OutputFile

end StubDecl
