import StubDecl.Project.Basic

/-!
# Converting a project

A conversion with all that is kept between runs: the cache is opened and readied for the settings,
blocks come from it and go to it, and the statistics of a run without failure are recorded in it, to
be compared with those of the next.
-/

namespace StubDecl

/-- An open cache store: its place on the disk and its present content. -/
structure StoreFile where
  place : List Text
  store : BlockStore
  deriving DecidableEq, Repr

namespace StoreFile

/-- The store in a file. There is none yet in a file that is missing or empty. -/
def storeIn (e : Option (FileTree.Entry Leaf)) : Outcome BlockStore :=
  match e with
  | none => .ok {}
  | some (.leaf (.store s)) => .ok s
  | some (.leaf (.file [])) => .ok {}
  | some _ => .error (Failure.ofMessage "invalid database")

/-- The disk with the present content of the store. -/
def flush (f : StoreFile) (d : Disk) : Disk := d.withLeaf f.place (.store f.store)

/-- Opens the store in a file, whose directory must exist. -/
def openAt (d : Disk) (path : Text) : Outcome StoreFile := do
  let at_ ← d.placeForWriting path
  return { place := at_, store := ← storeIn (d.root.getAt? at_) }

end StoreFile

/-- What a conversion comes to: the disk, why the cache was emptied (empty if it was not), how the run
went, and the statistics that a run without failure is compared with. -/
structure Conversion where
  disk : Disk
  rebuilt : Text := []
  report : RunReport BlockStore
  previous : Option RunStats := none
  deriving DecidableEq, Repr

namespace Project

/-- Opens the cache of the project and readies it for the settings. -/
def openCache (p : Project) (d : Disk) : Outcome (Disk × StoreFile × Text) := do
  let path := p.settings.cachePath p.dir
  let d ← (d.makeDirs (Path.parent path)).mapError (Failure.within "failed to create state directory")
  let f ← (StoreFile.openAt d path).mapError fun e =>
    (e.within "failed to open bolt db").within "failed to open block cache"
  let (store, reason) := f.store.prepare p.settings
  let f := { f with store := store }
  return (f.flush d, f, reason)

/-- The cache of a conversion, if it has one. -/
def cacheFor (p : Project) (d : Disk) (noCache : Bool) : Outcome (Disk × Option StoreFile × Text) :=
  if p.settings.cache.enabled && !noCache then
    (p.openCache d).map fun (d, f, reason) => (d, some f, reason)
  else .ok (d, none, [])

/-- The statistics of the last run in a store, if they are not damaged. -/
def lastRun? (s : BlockStore) : Option RunStats :=
  match s.lastRun with
  | (r, true) => some r
  | (_, false) => none

/-- Converts a directory into an open output file, with an open cache. -/
def convertWith (p : Project) (d : Disk) (canceled : Bool) (source : Text) (out : OutputFile)
    (file : Option StoreFile) (rebuilt : Text) : Conversion :=
  match file with
  | none =>
    let (d, r) := p.convertTo d canceled source out none ({} : BlockStore)
    { disk := d, report := r }
  | some f =>
    let (d, r) := p.convertTo d canceled source out (some BlockCache.store) f.store
    match r.failure, r.result with
    | none, some (stats, _) =>
      { disk := { f with store := r.cache.setLastRun stats }.flush d, rebuilt := rebuilt, report := r
        previous := lastRun? r.cache }
    | _, _ => { disk := { f with store := r.cache }.flush d, rebuilt := rebuilt, report := r }

/-- Converts a directory. Without a conversion there is a disk, what was said about the cache, and a
failure. -/
def convert (p : Project) (d : Disk) (canceled noCache : Bool) (source output : Text) :
    Except (Disk × Text × Failure) Conversion :=
  match p.cacheFor d noCache with
  | .error f => .error (d, [], f)
  | .ok (d, file, rebuilt) =>
    match p.openOutput d output with
    | .error f => .error (d, rebuilt, f)
    | .ok (d, out) => .ok (p.convertWith d canceled source out file rebuilt)

end Project

end StubDecl
