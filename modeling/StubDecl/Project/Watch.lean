import StubDecl.Project.Basic
import StubDecl.Watch.Basic

/-!
# Converting on every change

While a project is watched, its output file is written anew after every reported change. Unchanged
files are served from memory. A failing conversion does not end the watch.
-/

namespace StubDecl

/-- What a rebuild leaves: the disk, the cache, the place of the output file if it could be opened,
and the statistics of the run or what it failed with. -/
structure Rebuild where
  disk : Disk
  cache : MemoryCache
  output : Option (List Text) := none
  outcome : Outcome RunStats

namespace Project

/-- Writes the output file anew. -/
def rebuild (p : Project) (d : Disk) (canceled : Bool) (source output : Text) (cache : MemoryCache) :
    Rebuild :=
  match p.openOutput d output with
  | .error f => { disk := d, cache := cache, outcome := .error f }
  | .ok (d, out) =>
    let (d, r) := p.convertTo d canceled source out (some BlockCache.memory) cache
    { disk := d, cache := r.cache, output := some out.place
      outcome := match r.failure, r.result with
        | some f, _ => .error f
        | none, some (stats, _) => .ok stats
        | none, none => .ok {} }

end Project

/-- A project under watch: which directory is converted where, the disk, the watcher and the cache. -/
structure WatchSession where
  project : Project
  source : Text
  output : Text
  disk : Disk
  watcher : Watcher
  cache : MemoryCache := []

namespace WatchSession

/-- The watch over the directory of a project that is asked for. -/
def start (p : Project) (d : Disk) (o : Options) (path : Option Text) : Outcome WatchSession := do
  let source ← p.sourceDir d path
  return {
    project := p
    source := source
    output := p.outputPath d o.output
    disk := d
    watcher := Watcher.start p.settings.scope d.root (d.ownPlace (Path.absolute d.directory source)) }

/-- Rebuilds. A directory that is made for the output is noticed like any other. -/
def rebuild (s : WatchSession) (canceled : Bool) : WatchSession × Outcome RunStats :=
  let r := s.project.rebuild s.disk canceled s.source s.output s.cache
  let watcher := match r.output with
    | some at_ => (s.watcher.written s.disk.root r.disk.root at_).1
    | none => s.watcher
  ({ s with disk := r.disk, cache := r.cache, watcher := watcher }, r.outcome)

/-- Handles a change: there is a rebuild if it is reported. -/
def handle (s : WatchSession) (c : Disk.Change) : WatchSession × Option (Outcome RunStats) :=
  let (watcher, paths) := s.watcher.changed s.disk c
  let t := { s with disk := s.disk.apply c, watcher := watcher }
  if paths.isEmpty then (t, none)
  else
    let (u, r) := t.rebuild false
    (u, some r)

/-- Handles changes one after the other; the rebuilds are listed. -/
def handleAll (s : WatchSession) : List Disk.Change → WatchSession × List (Outcome RunStats)
  | [] => (s, [])
  | c :: cs =>
    let (t, r) := s.handle c
    let (u, rs) := t.handleAll cs
    (u, r.toList ++ rs)

end WatchSession

end StubDecl
