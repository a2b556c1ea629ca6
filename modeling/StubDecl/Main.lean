import Std.Time.Zoned
import StubDecl.Cache.File
import StubDecl.Command.Answer
import StubDecl.Watch.Debounce

/-!
# The program

Reads the files that a request is about, answers the request, and writes back what has changed. A
watch looks at the files again and again.
-/

namespace StubDecl.Program

/-- The string that a text spells. -/
def string (t : Text) : String := String.ofList t.chars

/-- The content of a file as a leaf. -/
def leafOf (content : Text) : Leaf :=
  match BlockStore.ofFile? content with
  | some s => .store s
  | none => .file content

/-- A leaf as the content of a file. -/
def contentOf : Leaf → Text
  | .file c => c
  | .store s => s.toFile
  | .link _ => []

/-- Reads a file. -/
def readLeaf (path : String) : IO Leaf := do
  return leafOf (← IO.FS.readBinFile path).toList

/-- Reads a directory with all that is in it. A link to a file stands for the file. -/
partial def readTree (path : String) : IO (FileTree Leaf) := do
  let dir := (← IO.currentDir) / path
  let mut tree : FileTree Leaf := .nil
  for e in ← dir.readDir do
    let full := path ++ "/" ++ e.fileName
    let name := Text.ofString e.fileName
    match (← (dir / e.fileName).symlinkMetadata).type with
    | .dir => tree := tree.set name (.dir (← readTree full))
    | .file => tree := tree.set name (.leaf (← readLeaf full))
    | .symlink =>
      if ← (dir / e.fileName).isDir then
        tree := tree.set name (.leaf (.link (toString (← IO.FS.realPath full))))
      else if ← (dir / e.fileName).pathExists then tree := tree.set name (.leaf (← readLeaf full))
      else tree := tree.set name (.leaf (.link (name ++ ".missing")))
    | .other => pure ()
  return tree

/-- The disk with what is at an absolute path, and the directories on the way to it. A directory is
read with all that is in it only if `deep`. -/
def readInto (d : Disk) (deep : Bool) (path : Text) : IO Disk := do
  let names := Path.components path
  if (d.root.getAt? names).isSome then return d
  let mut root := d.root
  let mut here : List Text := []
  for n in names do
    here := here ++ [n]
    let file := (← IO.currentDir) / ("/" ++ "/".intercalate (here.map string))
    let last := here.length = names.length
    if (root.getAt? here).isSome then pure ()
    else if ← file.isDir then
      root := root.setAt here (.dir (← if last && deep then readTree file.toString else pure .nil))
    else if ← file.pathExists then root := root.setAt here (.leaf (← readLeaf file.toString))
  return { d with root := root }

/-- The disk with all that a request is about. -/
def readFor (d : Disk) (o : Options) (path : Option Text) : IO Disk := do
  let at_ := Path.absolute d.directory
  let mut d ← readInto d true (at_ o.dir)
  for p in path.toList do d ← readInto d true (at_ p)
  for p in [o.config, o.output] do
    unless p.isEmpty do d ← readInto d false (at_ p)
  match Project.load d o with
  | .ok p =>
    d ← readInto d false (at_ (p.settings.outputPath p.dir))
    readInto d false (at_ (p.settings.cachePath p.dir))
  | .error _ => return d

/-- Writes back what is not on the disk as it was. -/
def writeBack (old new : Disk) : IO PUnit := do
  for place in new.root.places [] do
    let path := "/" ++ "/".intercalate (place.map string)
    match new.root.getAt? place, old.root.getAt? place with
    | some (.dir _), none => IO.FS.createDirAll path
    | some (.leaf l), e =>
      if e ≠ some (.leaf l) then IO.FS.writeBinFile path ⟨(contentOf l).toArray⟩
    | _, _ => pure ()

/-- Prints a text. -/
def print (stream : IO.FS.Stream) (t : Text) : IO PUnit := do
  stream.write ⟨t.toArray⟩
  stream.flush

/-- The time of day, as hours, minutes and seconds. -/
def clock : IO Text := do
  let t ← Std.Time.PlainTime.now
  let two := fun (n : Int) => Text.ofInt (n / 10) ++ Text.ofInt (n % 10)
  return two t.hour.val ++ ":" ++ two t.minute.val ++ ":" ++ two t.second.val

/-- Milliseconds between two looks at the files. -/
def pause : Nat := 50

/-- Writes the output anew and prints how it went. -/
def rebuild (s : WatchSession) : IO WatchSession := do
  let begin_ ← IO.monoMsNow
  let (t, r) := s.rebuild false
  writeBack s.disk t.disk
  let elapsed := Int64.ofNat (((← IO.monoMsNow) - begin_) * 1000000)
  print (← IO.getStdout) (Occasion.rebuildLine { clock := ← clock, elapsed := elapsed } r)
  return t

/-- Looks at the files until the program is stopped. Changes are collected until there has been none
for `wait` nanoseconds. -/
partial def watch (s : WatchSession) (wait : Duration) (b : Debouncer) (quiet : Nat) : IO PUnit := do
  IO.sleep pause.toUInt32
  let place := s.disk.ownPlace (Path.absolute s.disk.directory s.source)
  let old := match s.disk.root.getAt? place with
    | some (.dir t) => t
    | _ => .nil
  let new ← readTree ("/" ++ "/".intercalate (place.map string))
  let changed := s.project.settings.scope.changedPaths old new
  let s := { s with disk := { s.disk with root := s.disk.root.setAt place (.dir new) } }
  if !changed.isEmpty then
    watch s wait ((b.run? (changed.map .schedule)).getD b) 0
  else if b.armed && wait.toInt ≤ quiet * 1000000 then
    match b.run? [.fire, .take] with
    | some c =>
      let t ← if (c.handedOver (.deliver 0)).isSome then rebuild s else pure s
      watch t wait ((c.step? (.deliver 0)).getD {}) 0
    | none => watch s wait b (quiet + pause)
  else watch s wait b (quiet + pause)

/-- Prints an answer and writes back what it changed. -/
def finish (d : Disk) (a : Answer) : IO UInt32 := do
  writeBack d a.disk
  print (← IO.getStdout) a.out
  print (← IO.getStderr) a.err
  return if a.failure.isSome then 1 else 0

/-- Answers arguments. -/
def run (args : List Text) : IO UInt32 := do
  let here := Text.ofString (toString (← IO.currentDir))
  let d ← readInto { directory := here } true here
  match Request.parse args with
  | .ok (.run c o path) =>
    let d ← readFor d o path
    match c, (Project.load d o).bind fun p => WatchSession.start p d o path with
    | .watch, .ok s =>
      let t ← rebuild s
      print (← IO.getStdout) ("Watching " ++ s.source ++ " for changes (Ctrl+C to stop)...\n")
      watch t o.debounce {} 0
      return 0
    | _, _ => finish d (Answer.ofArguments d {} args)
  | .ok (.explain o _) =>
    let d ← readFor d o none
    finish d (Answer.ofArguments d {} args)
  | _ => finish d (Answer.ofArguments d {} args)

end StubDecl.Program

/-- The program. -/
def main (args : List String) : IO UInt32 := StubDecl.Program.run (args.map StubDecl.Text.ofString)
