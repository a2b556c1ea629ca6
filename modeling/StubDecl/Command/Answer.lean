import StubDecl.Command.Request
import StubDecl.Project.Convert
import StubDecl.Project.Watch
import StubDecl.Run.Report

/-!
# Answers to requests

What a call of the program leaves behind and prints. `Answer.ofArguments` is the whole program as a function of
the disk and the arguments; a watch also takes the changes that are made while it lasts.
-/

namespace StubDecl

/-- The disk after a call, what it printed to its two outputs, and what it failed with. -/
structure Answer where
  disk : Disk
  out : Text := []
  err : Text := []
  failure : Option Failure := none
  deriving DecidableEq, Repr

/-- What a call takes from outside: whether it is canceled from the start, what the clock shows, how
long a rebuild takes, and the changes that are made while it watches. -/
structure Occasion where
  canceled : Bool := false
  clock : Text := []
  elapsed : Duration := 0
  changes : List Disk.Change := []
  deriving DecidableEq, Repr

/-! ## Texts -/

/-- What a file declares, on one line. -/
def Summary.line (s : Summary) : Text :=
  let parent : Text := if s.parent.isEmpty then [] else " extends " ++ s.parent
  "  " ++ s.relPath.padRight 40 ++ " " ++ s.className ++ parent ++ " (" ++ Text.ofInt s.methodCount.toInt ++
    " methods, " ++ Text.ofInt s.variableCount.toInt ++ " variables)\n"

/-- The statistics of a conversion. -/
def RunStats.text (s : RunStats) : Text :=
  let line := fun (label : Text) (n : Int64) (note : Text) =>
    ("  " ++ label.padRight 17 ++ Text.ofInt n.toInt ++ note ++ "\n" : Text)
  line "Files converted:" s.converted [] ++ line "Files cached:" s.cached " (unchanged)" ++
    (if 0 < s.pruned then line "Cache pruned:" s.pruned " (removed)" else []) ++
    line "Classes:" s.classCount [] ++ line "Methods:" s.methodCount [] ++ line "Variables:" s.variableCount []

/-- The statistics of a conversion in memory. -/
def RunStats.checkText (s : RunStats) (files bytes : Nat) : Text :=
  Text.ofNat files ++ " file(s) OK: " ++ Text.ofInt s.classCount.toInt ++ " classes, " ++
    Text.ofInt s.methodCount.toInt ++ " methods, " ++ Text.ofInt s.variableCount.toInt ++ " variables (" ++
    Text.ofNat bytes ++ " bytes of declarations)\n"

/-- How a rebuild went, on one line. -/
def Occasion.rebuildLine (w : Occasion) (r : Outcome RunStats) : Text :=
  "[" ++ w.clock ++ "] " ++ match r with
    | .error f => "conversion failed: " ++ f.message ++ "\n"
    | .ok s => Text.ofInt s.converted.toInt ++ " file(s) converted, " ++ Text.ofInt s.cached.toInt ++
        " unchanged (" ++ w.elapsed.format ++ ")\n"

/-! ## Commands -/

namespace Answer

/-- An answer that is a failure, with texts printed before. -/
def failed (d : Disk) (f : Failure) (out err : Text) : Answer :=
  { disk := d, out := out, err := err ++ "Error: " ++ f.message ++ "\n", failure := some f }

/-- The answer to a failed run. -/
def ofFailedRun {κ : Type} (d : Disk) (r : RunReport κ) (f : Failure) (out : Text) : Answer :=
  let (printed, g) := f.report r.fileCount
  failed d g out printed

/-- Writes the default settings, unless there is a file that must be kept. -/
def toInit (p : Project) (d : Disk) (o : Options) : Answer :=
  let path := Path.join p.dir Settings.fileName
  if d.hasPath path && !o.force then
    failed d (Failure.ofMessage (path ++ " already exists (use --force to overwrite)")) [] []
  else match d.putFile path ({} : Settings).print with
    | .error f => failed d (f.within "failed to write config") [] []
    | .ok d => { disk := d, out := "Wrote default configuration to " ++ path ++ "\n" }

/-- What is printed for a run in memory without failure. -/
def checkOutput {κ : Type} (r : RunReport κ) (list : Bool) : Text :=
  let (stats, files) := r.result.getD ({}, [])
  (if list then files.flatMap Summary.line ++ [0x0a] else []) ++
    stats.checkText files.length r.output.length

/-- Converts in memory. -/
def toCheck (p : Project) (d : Disk) (w : Occasion) (o : Options) (path : Option Text) : Answer :=
  match p.sourceDir d path with
  | .error f => failed d f [] []
  | .ok source =>
    let r := p.check d w.canceled source
    match r.failure with
    | some f => ofFailedRun d r f []
    | none => { disk := d, out := checkOutput r o.list }

/-- Why the cache was emptied, if it was. -/
def rebuiltText (reason : Text) : Text :=
  if reason.isEmpty then [] else "Cache rebuild required: " ++ reason ++ "\n"

/-- The answer to a conversion of the directory `source` into the file `output`. -/
def ofConversion (c : Conversion) (source output : Text) : Answer :=
  let start : Text := rebuiltText c.rebuilt ++ "Converting " ++ source ++ "...\n"
  match c.report.failure with
  | some f => ofFailedRun c.disk c.report f start
  | none =>
    let (stats, _) := c.report.result.getD ({}, [])
    let delta : Text := match c.previous with
      | some old => old.delta stats
      | none => []
    { disk := c.disk
      out := start ++ "\nConversion complete:\n" ++ stats.text ++ delta ++
        "\nDeclarations written to: " ++ output ++ "\n" }

/-- Converts into the output file. -/
def toConvert (p : Project) (d : Disk) (w : Occasion) (o : Options) (path : Option Text) : Answer :=
  match p.sourceDir d path with
  | .error f => failed d f [] []
  | .ok source =>
    let output := p.outputPath d o.output
    match p.convert d w.canceled o.noCache source output with
    | .error (d, reason, f) => failed d f (rebuiltText reason) []
    | .ok c => ofConversion c source output

/-- What is printed for the first conversion of a watch. A conversion that was cut off is not
mentioned. -/
def watchOutput (w : Occasion) (source : Text) (first : Outcome RunStats) : Text :=
  let line : Text := match first, w.canceled with
    | .error _, true => []
    | r, _ => w.rebuildLine r
  line ++ "Watching " ++ source ++ " for changes (Ctrl+C to stop)...\n"

/-- Converts once and then after every reported change. A canceled watch ends before the first of
them. -/
def toWatch (p : Project) (d : Disk) (w : Occasion) (o : Options) (path : Option Text) : Answer :=
  match WatchSession.start p d o path with
  | .error f => failed d f [] []
  | .ok s =>
    let (t, first) := s.rebuild w.canceled
    let (u, later) := t.handleAll (if w.canceled then [] else w.changes)
    { disk := u.disk, out := watchOutput w s.source first ++ later.flatMap w.rebuildLine }

/-- The answer to a command with options. -/
def toCommand (p : Project) (d : Disk) (w : Occasion) (c : Command) (o : Options) (path : Option Text) :
    Answer :=
  match c with
  | .init => toInit p d o
  | .check => toCheck p d w o path
  | .convert => toConvert p d w o path
  | .watch => toWatch p d w o path

/-- The answer to a misuse. -/
def toMisuse (d : Disk) (m : Misuse) : Answer :=
  let a := failed d (Failure.ofMessage m.message) [] []
  match m with
  | .unknownCommand _ _ =>
    { a with err := a.err ++ "Run '" ++ Misuse.program ++ " --help' for usage.\n" }
  | _ => a

/-- The answer to arguments. -/
def ofArguments (d : Disk) (w : Occasion) (args : List Text) : Answer :=
  match Request.parse args with
  | .error m => toMisuse d m
  | .ok (.help t) => { disk := d, out := t.text }
  | .ok (.explain o words) =>
    match Project.load d o with
    | .error f => failed d f [] []
    | .ok _ =>
      match Request.topic? words with
      | some t => { disk := d, out := t.text }
      | none => { disk := d, err := Topic.unknown words }
  | .ok (.run c o path) =>
    match Project.load d o with
    | .error f => failed d f [] []
    | .ok p => toCommand p d w c o path

end Answer

end StubDecl
