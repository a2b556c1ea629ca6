import StubDecl.Cache.Store

/-!
# Block caches

What a run needs of a cache: looking up, storing and deleting blocks by path, and listing the paths.
Each of these may fail.

* `BlockCache.memory`: blocks kept as they are, for the time of a process;
* `BlockCache.store`: blocks kept as records in a persistent store;
* `BlockCache.faulty`: a cache some of whose operations fail.
-/

namespace StubDecl

/-- The operations of a cache with states of type `κ`. -/
structure BlockCache (κ : Type) where
  get : κ → Text → Outcome (Option CachedBlock)
  put : κ → CachedBlock → Outcome κ
  delete : κ → Text → Outcome κ
  paths : κ → Outcome (List Text)

/-- The state of a cache in memory: blocks by path. -/
abbrev MemoryCache := Bucket CachedBlock

namespace MemoryCache

/-- The cache with a block under its path. -/
def put (c : MemoryCache) (b : CachedBlock) : MemoryCache := Bucket.insert c b.path b

end MemoryCache

namespace BlockCache

/-- A cache in memory; its operations never fail. Its bucket is kept in order, so that nothing is left to
sort when the paths are listed. -/
def memory : BlockCache MemoryCache where
  get c path := .ok (c.get? path)
  put c b := .ok (c.put b)
  delete c path := .ok (c.erase path)
  paths c := .ok c.keys

/-- A cache in a store; looking up a damaged record fails. -/
def store : BlockCache BlockStore where
  get s path :=
    match s.get path with
    | none => .ok none
    | some (b, true) => .ok (some b)
    | some (_, false) => .error Cause.damagedRecord
  put s b := s.put b
  delete s path := .ok (s.delete path)
  paths s := .ok s.paths

/-- Which operations of a cache fail. -/
structure Faults where
  get : Text → Bool := fun _ => false
  put : Text → Bool := fun _ => false
  delete : Text → Bool := fun _ => false
  paths : Bool := false

/-- A cache some of whose operations fail with `failure` and change nothing. -/
def faulty {κ : Type} (c : BlockCache κ) (faults : Faults) (failure : Failure) : BlockCache κ where
  get s path := if faults.get path then .error failure else c.get s path
  put s b := if faults.put b.path then .error failure else c.put s b
  delete s path := if faults.delete path then .error failure else c.delete s path
  paths s := if faults.paths then .error failure else c.paths s

end BlockCache

end StubDecl
