import StubDecl.Cache.Basic
import StubDecl.Declaration

/-!
# Conversion runs

A run converts files one after the other and appends their blocks to an output. A block comes from
the cache if the content of the file is the one it was rendered from. The first failure ends the run;
what was appended before stays. After a run without failure the cache forgets the files that are no
longer there.
-/

namespace StubDecl

/-- A file to convert: its path, and its path below the directory of the run. -/
structure SourceFile where
  path : Text
  relPath : Text
  deriving DecidableEq, Repr

/-- What a run has to do: how blocks are rendered and where they are cached. -/
structure Job (κ : Type) where
  table : TypeTable := {}
  style : Style := {}
  cache : Option (BlockCache κ) := none

/-- The surroundings of a run: what reading a file gives when a text has been written so far, why
appending for the file with an index fails, and why the run is stopped before it. -/
structure Surroundings where
  read : Text → Text → Outcome Text
  appendFault : Nat → Option Failure := fun _ => none
  stop : Nat → Option Failure := fun _ => none

/-- A call that reports progress: how many files of how many are done, and the last of them. -/
structure Progress where
  done : Nat
  total : Nat
  relPath : Text
  deriving DecidableEq, Repr

/-- The state of a run. -/
structure RunState (κ : Type) where
  cache : κ
  output : Text := []
  files : List Summary := []
  stats : RunStats := {}
  progress : List Progress := []
  deriving DecidableEq, Repr

/-- What a run comes to. There is no result if the files could not be listed. -/
structure RunReport (κ : Type) where
  cache : κ
  output : Text := []
  progress : List Progress := []
  result : Option (RunStats × List Summary) := none
  failure : Option Failure := none
  deriving DecidableEq, Repr

namespace Job

variable {κ : Type}

/-- The cached block of a file, if it was rendered from content with this digest. A failing lookup
counts as none. -/
def cachedBlock? (j : Job κ) (c : κ) (path hash : Text) : Option CachedBlock :=
  match j.cache with
  | none => none
  | some ops =>
    match ops.get c path with
    | .ok (some b) => if b.hash = hash then some b else none
    | _ => none

/-- The cache with the block of a file. A failing update changes nothing. -/
def remember (j : Job κ) (c : κ) (b : CachedBlock) : κ :=
  match j.cache with
  | none => c
  | some ops =>
    match ops.put c b with
    | .ok c' => c'
    | .error _ => c

/-- What a cached block says about its file. -/
def summaryOf (file : SourceFile) (b : CachedBlock) : Summary :=
  { path := file.path, relPath := file.relPath, className := b.className, parent := b.parent
    methodCount := b.methodCount, variableCount := b.variableCount }

/-- A converted file as a block for the cache. -/
def blockOf (path hash block : Text) (s : Summary) : CachedBlock :=
  { path := path, hash := hash, block := block, className := s.className, parent := s.parent
    methodCount := s.methodCount, variableCount := s.variableCount }

/-- The block of a file with a given content, from the cache if possible: the block, what it
declares, and whether it was cached. -/
def produce (j : Job κ) (c : κ) (file : SourceFile) (content : Text) :
    κ × Outcome (Text × Summary × Bool) :=
  let hash := contentHash content
  match j.cachedBlock? c file.path hash with
  | some b => (c, .ok (b.block, summaryOf file b, true))
  | none =>
    match convertFile j.table j.style file.path content with
    | .error f => (c, .error f)
    | .ok (block, s) =>
      (j.remember c (blockOf file.path hash block s), .ok (block, { s with relPath := file.relPath }, false))

/-- The statistics with one more file. -/
def count (t : RunStats) (block : Text) (s : Summary) (cached : Bool) : RunStats :=
  { t with
    converted := if cached then t.converted else t.converted + 1
    cached := if cached then t.cached + 1 else t.cached
    classCount := t.classCount + 1
    methodCount := t.methodCount + s.methodCount
    variableCount := t.variableCount + s.variableCount
    bytes := t.bytes + Int64.ofNat block.length }

/-- Converts the file with index `i` of `total`. -/
def convertOne (j : Job κ) (w : Surroundings) (total i : Nat) (file : SourceFile) (s : RunState κ) :
    RunState κ × Option Failure :=
  match w.read s.output file.path with
  | .error f => (s, some (f.within ("failed to read " ++ file.path)))
  | .ok content =>
    match j.produce s.cache file content with
    | (c, .error f) => ({ s with cache := c }, some f)
    | (c, .ok (block, summary, cached)) =>
      match w.appendFault i with
      | some f => ({ s with cache := c }, some (f.within ("failed to write declarations for " ++ file.path)))
      | none =>
        ({ cache := c, output := s.output ++ block, files := s.files ++ [summary]
           stats := count s.stats block summary cached
           progress := s.progress ++ [⟨i + 1, total, file.relPath⟩] }, none)

/-- Converts files up to the first failure, the first of them having index `i` of `total`. -/
def convertFrom (j : Job κ) (w : Surroundings) (total : Nat) :
    Nat → List SourceFile → RunState κ → RunState κ × Option Failure
  | _, [], s => (s, none)
  | i, file :: files, s =>
    match w.stop i with
    | some f => (s, some f)
    | none =>
      match j.convertOne w total i file s with
      | (t, some f) => (t, some f)
      | (t, none) => j.convertFrom w total (i + 1) files t

/-- Deletes the paths for which `stale` holds one after the other: the cache, how many were deleted,
and what made it stop. -/
def deleteStale (ops : BlockCache κ) (stale : Text → Bool) :
    List Text → κ → Nat → κ × Nat × Option Failure
  | [], c, n => (c, n, none)
  | p :: ps, c, n =>
    if stale p then
      match ops.delete c p with
      | .ok c' => deleteStale ops stale ps c' (n + 1)
      | .error f => (c, n, some f)
    else deleteStale ops stale ps c n

/-- Makes the cache forget all files but the given ones. -/
def prune (ops : BlockCache κ) (files : List SourceFile) (c : κ) : κ × Nat × Option Failure :=
  match ops.paths c with
  | .error f => (c, 0, some f)
  | .ok ps => deleteStale ops (fun p => !(files.any fun f => f.path = p)) ps c 0

/-- Ends a run that has converted all files. -/
def finish (j : Job κ) (files : List SourceFile) (s : RunState κ) : RunState κ × Option Failure :=
  match j.cache with
  | none => (s, none)
  | some ops =>
    match prune ops files s.cache with
    | (c, _, some f) => ({ s with cache := c }, some (f.within "failed to prune cache"))
    | (c, n, none) => ({ s with cache := c, stats := { s.stats with pruned := Int64.ofNat n } }, none)

/-- Converts files and prunes the cache. -/
def convertAll (j : Job κ) (w : Surroundings) (files : List SourceFile) (c : κ) :
    RunState κ × Option Failure :=
  match j.convertFrom w files.length 0 files { cache := c } with
  | (s, some f) => (s, some f)
  | (s, none) => j.finish files s

/-- A run over the files that were found. -/
def run (j : Job κ) (w : Surroundings) (found : Outcome (List SourceFile)) (c : κ) : RunReport κ :=
  match found with
  | .error f => { cache := c, failure := some (f.within "failed to walk directory") }
  | .ok files =>
    let (s, failure) := j.convertAll w files c
    { cache := s.cache, output := s.output, progress := s.progress
      result := some (s.stats, s.files), failure := failure }

end Job

end StubDecl
