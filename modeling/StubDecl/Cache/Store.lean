import StubDecl.Cache.Block
import StubDecl.Cache.Bucket
import StubDecl.Settings.Hash

/-!
# The persistent block cache

A store has a bucket of block records by path and a bucket with the schema version, the hash of the
render settings and the statistics of the last run. `BlockStore.prepare` readies it for given
settings: a store that was written under other settings, or by a newer program, is emptied first. This
takes at most two changes, each of which is committed as a whole (`BlockStore.commits`).
-/

namespace StubDecl

/-- The raw records of a store. -/
structure BlockStore where
  blocks : Bucket Text := []
  stats : Bucket Text := []
  deriving DecidableEq, Repr

/-- What a store says about itself. -/
structure SchemaInfo where
  version : Int64 := 0
  hash : Text := []
  deriving DecidableEq, Repr

/-- What has to be done to a store before it can be used, and why. -/
structure SchemaCheck where
  migrate : Bool := false
  rebuild : Bool := false
  old : Int64
  reason : Text := []
  deriving DecidableEq, Repr

namespace BlockStore

/-- The schema that this library writes. -/
def currentVersion : Int64 := 1

/-- The keys of the second bucket. -/
def versionKey : Text := "schema_version"

@[inherit_doc versionKey]
def hashKey : Text := "config_hash"

@[inherit_doc versionKey]
def lastRunKey : Text := "last_run"

/-- The length of the longest key. -/
def maxKeyLength : Nat := 32768

/-- Why a key cannot be used. -/
def keyFault? (k : Text) : Option Failure :=
  if k.isEmpty then some (Failure.ofMessage "key required")
  else if maxKeyLength < k.length then some (Failure.ofMessage "key too large")
  else none

/-- A bucket with a record under a key that can be used. -/
def putRecord (b : Bucket Text) (k v : Text) : Outcome (Bucket Text) :=
  match keyFault? k with
  | some f => .error f
  | none => .ok (b.insert k v)

/-! ## Blocks -/

/-- The block of a path, if there is one; the flag says that its record is not damaged. -/
def get (s : BlockStore) (path : Text) : Option (CachedBlock × Bool) :=
  (s.blocks.get? path).map CachedBlock.ofRecord

/-- The store with a block under its path. -/
def put (s : BlockStore) (b : CachedBlock) : Outcome BlockStore := do
  return { s with blocks := ← putRecord s.blocks b.path b.toRecord }

/-- The store without the block of a path. -/
def delete (s : BlockStore) (path : Text) : BlockStore := { s with blocks := s.blocks.erase path }

/-- The paths that have a block, in bytewise order. -/
def paths (s : BlockStore) : List Text := s.blocks.keys

/-! ## The last run -/

/-- The statistics of the last run, zero if there is none; the flag says that they are not damaged. -/
def lastRun (s : BlockStore) : RunStats × Bool :=
  match s.stats.get? lastRunKey with
  | some r => RunStats.ofRecord r
  | none => ({}, true)

/-- The store with the statistics of a run. -/
def setLastRun (s : BlockStore) (r : RunStats) : BlockStore :=
  { s with stats := s.stats.insert lastRunKey r.toRecord }

/-! ## The schema -/

/-- The version that a record gives: null is 0, and what is no number counts as version 1. -/
def readVersion (t : Text) : Int64 :=
  match Json.parse t with
  | some (.other .null) => 0
  | some (.other (.number n)) => (Json.int64? n).getD 1
  | _ => 1

/-- What the store says about itself. -/
def schema (s : BlockStore) : SchemaInfo :=
  { version := ((s.stats.get? versionKey).map readVersion).getD 0
    hash := (s.stats.get? hashKey).getD [] }

/-- The store with a new version and hash. -/
def setSchema (s : BlockStore) (i : SchemaInfo) : BlockStore :=
  { s with stats := (s.stats.insert versionKey (Text.ofInt i.version.toInt)).insert hashKey i.hash }

/-- Compares a store with the current version and the hash of the settings. -/
def checkFor (s : BlockStore) (hash : Text) : SchemaCheck :=
  let i := s.schema
  let shown := fun (v : Int64) => "v" ++ Text.ofInt v.toInt
  if currentVersion < i.version then
    { rebuild := true, old := i.version
      reason := "cache created by newer version (" ++ shown i.version ++ " > " ++ shown currentVersion ++ ")" }
  else
    let changed := !i.hash.isEmpty && i.hash ≠ hash
    { migrate := i.version < currentVersion, rebuild := changed, old := i.version
      reason := if changed then "render configuration changed"
        else if i.version = 0 then "initializing schema version"
        else if i.version < currentVersion then
          "schema upgrade from " ++ shown i.version ++ " to " ++ shown currentVersion
        else [] }

/-- Records the current version and the hash of the settings. -/
def migrateTo (s : BlockStore) (hash : Text) : BlockStore := s.setSchema ⟨currentVersion, hash⟩

/-- The store without blocks and without the last run. -/
def clear (s : BlockStore) : BlockStore := { blocks := [], stats := s.stats.erase lastRunKey }

/-- The stores that readying a store for settings with the given hash commits one after the other. -/
def commits (s : BlockStore) (hash : Text) : List BlockStore :=
  let c := s.checkFor hash
  let kept := if c.rebuild then s.clear else s
  (if c.rebuild then [kept] else []) ++ if c.rebuild || c.migrate then [kept.migrateTo hash] else []

/-- Readies a store for settings with the given hash: what it commits last is the store that is used. The
text is the reason for emptying it, or empty if it was kept. -/
def prepareFor (s : BlockStore) (hash : Text) : BlockStore × Text :=
  let c := s.checkFor hash
  ((s.commits hash).getLastD s, if c.rebuild then c.reason else [])

/-- Compares a store with settings. -/
def check (s : BlockStore) (settings : Settings) : SchemaCheck := s.checkFor settings.hash

/-- Records that the store belongs to settings. -/
def migrate (s : BlockStore) (settings : Settings) : BlockStore := s.migrateTo settings.hash

/-- Readies a store for settings. -/
def prepare (s : BlockStore) (settings : Settings) : BlockStore × Text := s.prepareFor settings.hash

end BlockStore

/-! ## Sessions -/

/-- A store that may have been closed. -/
structure StoreSession where
  store : BlockStore := {}
  isOpen : Bool := true
  deriving DecidableEq, Repr

namespace StoreSession

/-- What using a closed store fails with. -/
def notOpen : Failure := Failure.ofMessage "database not open"

/-- An answer of an open store. -/
def query {α : Type} (s : StoreSession) (f : BlockStore → α) : Outcome α :=
  if s.isOpen then .ok (f s.store) else .error notOpen

/-- A change of an open store. -/
def update (s : StoreSession) (f : BlockStore → Outcome BlockStore) : Outcome StoreSession :=
  if s.isOpen then (f s.store).map fun t => { s with store := t } else .error notOpen

/-- The session after closing the store. -/
def close (s : StoreSession) : StoreSession := { s with isOpen := false }

/-- The session after opening the store again. -/
def reopen (s : StoreSession) : StoreSession := { s with isOpen := true }

/-- Compares an open store with settings. -/
def check (s : StoreSession) (settings : Settings) : Outcome SchemaCheck :=
  (s.query fun t => t.check settings).mapError (Failure.within "failed to get schema info")

/-- Readies an open store for settings. -/
def prepare (s : StoreSession) (settings : Settings) : Outcome (StoreSession × Text) := do
  let _ ← s.check settings
  let (t, reason) := s.store.prepare settings
  return ({ s with store := t }, reason)

end StoreSession

end StubDecl
