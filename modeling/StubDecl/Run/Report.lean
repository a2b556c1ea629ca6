import StubDecl.Run.Basic

/-!
# Reports on runs

The texts with which a run is reported: how it compares with the run before, and why it failed.
-/

namespace StubDecl

namespace RunStats

/-- The declarations of a run compared with those of the run before. Nothing is said if that one dealt
with no files. -/
def delta (previous current : RunStats) : Text :=
  let line := fun (label : Text) (n : Int64) => label ++ Text.ofIntSigned n.toInt ++ "\n"
  if previous.converted + previous.cached = 0 then []
  else
    "\nSince previous run:\n" ++
      line "  Classes:         " (current.classCount - previous.classCount) ++
      line "  Methods:         " (current.methodCount - previous.methodCount) ++
      line "  Variables:       " (current.variableCount - previous.variableCount)

end RunStats

namespace Failure

/-- How the failure of a run is reported when a number of files had been converted: what is printed,
and what the command fails with. A stop on request is not explained further; a defect of a stub file
is shown with its details and hints. -/
def report (f : Failure) (files : Nat) : Text × Failure :=
  let before : Text :=
    if files = 0 then [] else "\n" ++ Text.ofNat files ++ " file(s) converted before the failure\n"
  match f.cause with
  | .canceled => ([], Failure.ofMessage "conversion canceled")
  | .defect _ =>
    let line := fun (label t : Text) => label ++ ": " ++ t ++ "\n"
    let hint := if f.hint.isEmpty then [] else line "hint" f.hint
    (before ++ f.detailTexts.flatMap (line "detail") ++ hint, f)
  | _ => (before, f.within "conversion failed")

end Failure

namespace RunReport

variable {κ : Type}

/-- The number of files that a run converted. -/
def fileCount (r : RunReport κ) : Nat :=
  match r.result with
  | some (_, files) => files.length
  | none => 0

end RunReport

end StubDecl
