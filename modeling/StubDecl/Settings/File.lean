import StubDecl.File.Disk
import StubDecl.Settings.Document

/-!
# Settings on a disk

The settings of a project are in its settings file, or in the one in its state directory. Without
either the defaults hold.
-/

namespace StubDecl.Settings

/-- The settings in a file; the defaults if there is no such file. -/
def load (d : Disk) (path : Text) : Outcome Settings :=
  match d.contentOf path with
  | .ok document => parse document
  | .error f =>
    match f.cause with
    | .path ⟨_, _, .missing⟩ => .ok {}
    | _ => .error f

/-- The settings of the project in a directory. -/
def loadFrom (d : Disk) (dir : Text) : Outcome Settings :=
  let first := Path.join dir fileName
  let second := Path.join dir (stateDirectory ++ "/config.yaml")
  if d.hasPath first then load d first
  else if d.hasPath second then load d second
  else .ok {}

/-- Where the declarations of the project in a directory go. -/
def outputPath (s : Settings) (dir : Text) : Text := Path.below dir s.convert.output

/-- Where the cache of the project in a directory is. -/
def cachePath (s : Settings) (dir : Text) : Text := Path.below dir s.cache.path

/-- The files that are converted. -/
def scope (s : Settings) : Scope := Scope.ofPatterns s.convert.includes s.convert.excludes

end StubDecl.Settings
