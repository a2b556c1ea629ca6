import StubDecl.Command.Flag
import StubDecl.File.Output
import StubDecl.Settings.File

/-!
# Projects

A project is a directory with settings. `Project.check` and `Project.convertTo` are the two ways to
run a conversion over one of its directories: in memory, and into an output file that is already open.
What is read while a file is being written is what has been written so far.
-/

namespace StubDecl

/-- A project directory, as it was given, and the settings in effect. -/
structure Project where
  dir : Text
  settings : Settings := {}
  deriving DecidableEq, Repr

namespace Project

/-- The project that options choose, with its settings. -/
def load (d : Disk) (o : Options) : Outcome Project := do
  let dir := if o.dir.isEmpty then d.directory else o.dir
  let settings ← (if o.config.isEmpty then Settings.loadFrom d dir else Settings.load d o.config).mapError
    (Failure.within "failed to load config")
  return { dir := dir, settings := settings }

/-- The directory whose stub files are converted: the one asked for, or the project itself. -/
def sourceDir (p : Project) (d : Disk) (path : Option Text) : Outcome Text :=
  let dir := match path with
    | some q => Path.absolute d.directory q
    | none => p.dir
  match d.stat dir with
  | .error f => (Disk.refused "stat" dir f).mapError (Failure.within "path does not exist")
  | .ok (.leaf _) => .error (Failure.ofMessage ("path is not a directory: " ++ dir))
  | .ok (.dir _) => .ok dir

/-- Where declarations go: the file asked for, or the one of the settings. -/
def outputPath (p : Project) (d : Disk) (output : Text) : Text :=
  if output.isEmpty then p.settings.outputPath p.dir else Path.absolute d.directory output

/-- The conversion job of the project with a cache, or without one. -/
def job {κ : Type} (p : Project) (cache : Option (BlockCache κ)) : Job κ :=
  { table := p.settings.typeTable, style := p.settings.style, cache := cache }

/-- What a run sees of the disk while the output goes to a file. A canceled run stops before its first
file. -/
def surroundings (view : Text → Disk) (canceled : Bool) : Surroundings :=
  { read := fun written path => (view written).contentOf path
    stop := fun _ => if canceled then some Cause.canceled else none }

/-- A conversion of a directory in memory, without a cache. -/
def check (p : Project) (d : Disk) (canceled : Bool) (source : Text) : RunReport PUnit :=
  (p.job none).run (surroundings (fun _ => d) canceled) (d.sources p.settings.scope source) ⟨⟩

/-- A conversion of a directory into an open output file: the disk afterwards and how the run went. -/
def convertTo {κ : Type} (p : Project) (d : Disk) (canceled : Bool) (source : Text) (out : OutputFile)
    (cache : Option (BlockCache κ)) (c : κ) : Disk × RunReport κ :=
  let r := (p.job cache).run (surroundings (fun written => (out.append written).flush d) canceled)
    (d.sources p.settings.scope source) c
  ((out.append r.output).flush d, r)

/-- Opens the output file of the project. -/
def openOutput (p : Project) (d : Disk) (path : Text) : Outcome (Disk × OutputFile) :=
  (OutputFile.create d path p.settings.convert.header).mapError
    (Failure.within "failed to create output file")

end Project

end StubDecl
