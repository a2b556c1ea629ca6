import StubDecl.Project.Basic
import StubDecl.Proofs.Cache.Sound

/-!
# Files that a run visits

`Job.visits` lists the files that a run reads, with what it read and what came of it. A file is dealt
with in one of three ways: the run ends there, its block is rendered, or its block comes from the
cache. `Job.convertOne_cases` says which, for a run with a sound cache, and compares it with a run
without a cache over the same files. A run keeps its cache sound, however it ends
(`Job.sound_run`). A `RunRequest` is a run on a disk with all the faults that may befall it, and
`History.invariant` goes from what one event keeps to what a history of them keeps.
-/

namespace StubDecl

/-- A file that a run has read: its path, its content, whether the cache had its block, and whether the
block was appended to the output. -/
structure Visit where
  path : Text
  content : Text
  cached : Bool
  appended : Bool
  deriving DecidableEq, Repr

namespace RunState

variable {κ : Type}

/-- The state after a block was appended for one more file. -/
def deliver (s : RunState κ) (c : κ) (done : Progress) (block : Text) (summary : Summary)
    (cached : Bool) : RunState κ :=
  { cache := c, output := s.output ++ block, files := s.files ++ [summary]
    stats := Job.count s.stats block summary cached, progress := s.progress ++ [done] }

@[simp] theorem deliver_output (s : RunState κ) (c : κ) (done : Progress) (block : Text)
    (summary : Summary) (cached : Bool) :
    (s.deliver c done block summary cached).output = s.output ++ block := rfl

end RunState

namespace Job

open BlockCache

variable {κ κ' : Type}

/-- The files that a run reads up to its first failure, the first of them having index `i`. -/
def visits (j : Job κ) (w : Surroundings) (total : Nat) :
    Nat → List SourceFile → RunState κ → List Visit
  | _, [], _ => []
  | i, file :: files, s =>
    match w.stop i with
    | some _ => []
    | none =>
      match w.read s.output file.path with
      | .error _ => []
      | .ok content =>
        let hit := (j.cachedBlock? s.cache file.path (contentHash content)).isSome
        match j.convertOne w total i file s with
        | (_, some _) => [⟨file.path, content, hit, false⟩]
        | (t, none) => ⟨file.path, content, hit, true⟩ :: j.visits w total (i + 1) files t

/-- The files that a whole run reads. -/
def runVisits (j : Job κ) (w : Surroundings) (found : Outcome (List SourceFile)) (c : κ) : List Visit :=
  match found with
  | .error _ => []
  | .ok files => j.visits w files.length 0 files { cache := c }

/-- The same job without a cache. -/
def uncached (j : Job κ) (κ' : Type) : Job κ' := { table := j.table, style := j.style }

/-! ## One file -/

variable {ops : BlockCache κ} {image : CachedBlock → CachedBlock} {faults : Faults}
  {failure : Failure} {j : Job κ} {known : Set Text} {w : Surroundings} {s : RunState κ}

/-- Without a cache every block is rendered. -/
theorem produce_uncached (j : Job κ) (c : κ') (file : SourceFile) (content : Text) :
    (j.uncached κ').produce c file content =
      (c, (convertFile j.table j.style file.path content).map fun r =>
        (r.1, { r.2 with relPath := file.relPath }, false)) := by
  simp only [produce, uncached, cachedBlock?, remember]
  cases convertFile j.table j.style file.path content <;> rfl

/-- The block of a file comes from a sound cache, or it is rendered and remembered, or there is a
defect. -/
theorem produce_cases (hj : j.cache = some (ops.faulty faults failure)) (hk : ops.Keeps image)
    {c : κ} (hs : ops.Sound image j.table j.style known c) (hinj : Set.InjOn contentHash known)
    {t : Text} (ht : t ∈ known) (file : SourceFile) :
    (∃ f, convertFile j.table j.style file.path t = .error f ∧
        j.produce c file t = (c, .error f)) ∨
      ∃ block summary, convertFile j.table j.style file.path t = .ok (block, summary) ∧
        ((∃ c', j.cachedBlock? c file.path (contentHash t) = none ∧
            j.produce c file t = (c', .ok (block, { summary with relPath := file.relPath }, false)) ∧
            ops.Sound image j.table j.style known c') ∨
          ∃ b, b = image (blockOf file.path (contentHash t) block summary) ∧
            j.cachedBlock? c file.path (contentHash t) = some b ∧
            j.produce c file t = (c, .ok (b.block, summaryOf file b, true))) := by
  cases hc : j.cachedBlock? c file.path (contentHash t) with
  | some b =>
    obtain ⟨b₀, ⟨block, summary, hok, rfl⟩, hb⟩ := isRendered_of_cachedBlock? hj hk hs hinj ht hc
    refine .inr ⟨block, summary, hok, .inr ⟨b, hb, rfl, ?_⟩⟩
    simp only [produce, hc]
  | none =>
    cases hok : convertFile j.table j.style file.path t with
    | error f => exact .inl ⟨f, rfl, by simp only [produce, hc, hok]⟩
    | ok r =>
      obtain ⟨block, summary⟩ := r
      have hb : IsRendered j.table j.style file.path t
          (blockOf file.path (contentHash t) block summary) := ⟨block, summary, hok, rfl⟩
      exact .inr ⟨block, summary, rfl,
        .inl ⟨_, rfl, by simp only [produce, hc, hok], sound_remember hj hk hs ht hb⟩⟩

section ConvertOne

variable {total i : Nat} {file : SourceFile} {t block : Text} {c : κ} {summary : Summary} {cached : Bool}
  {f : Failure}

theorem convertOne_unread (hr : w.read s.output file.path = .error f) :
    j.convertOne w total i file s = (s, some (f.within ("failed to read " ++ file.path))) := by
  simp only [convertOne, hr]

variable (hr : w.read s.output file.path = .ok t)

include hr

theorem convertOne_defect (hp : j.produce s.cache file t = (c, .error f)) :
    j.convertOne w total i file s = ({ s with cache := c }, some f) := by
  simp only [convertOne, hr, hp]

theorem convertOne_unwritten (hp : j.produce s.cache file t = (c, .ok (block, summary, cached)))
    (ha : w.appendFault i = some f) :
    j.convertOne w total i file s =
      ({ s with cache := c }, some (f.within ("failed to write declarations for " ++ file.path))) := by
  simp only [convertOne, hr, hp, ha]

theorem convertOne_delivered (hp : j.produce s.cache file t = (c, .ok (block, summary, cached)))
    (ha : w.appendFault i = none) :
    j.convertOne w total i file s =
      (s.deliver c ⟨i + 1, total, file.relPath⟩ block summary cached, none) := by
  simp only [convertOne, hr, hp, ha, RunState.deliver]

/-- What producing the block leaves in the cache stays there, whether the block is appended or not. -/
theorem cache_convertOne : (j.convertOne w total i file s).1.cache = (j.produce s.cache file t).1 := by
  simp only [convertOne, hr]
  obtain ⟨c, f | r⟩ := j.produce s.cache file t
  · rfl
  · cases w.appendFault i <;> rfl

end ConvertOne

/-- One file of a run with a sound cache, beside the same file of a run without a cache that has
written the same output. Both fail alike, or both append a block; the blocks may differ only if the one
comes from the cache. -/
theorem convertOne_cases (hj : j.cache = some (ops.faulty faults failure)) (hk : ops.Keeps image)
    (hs : ops.Sound image j.table j.style known s.cache) (hinj : Set.InjOn contentHash known)
    (total i : Nat) {file : SourceFile}
    (hread : ∀ t, w.read s.output file.path = .ok t → t ∈ known) {s' : RunState κ'}
    (hout : s'.output = s.output) :
    (∃ f c, j.convertOne w total i file s = ({ s with cache := c }, some f) ∧
        (j.uncached κ').convertOne w total i file s' = (s', some f) ∧
        ops.Sound image j.table j.style known c) ∨
      ∃ t block summary, w.read s.output file.path = .ok t ∧
        convertFile j.table j.style file.path t = .ok (block, summary) ∧
        (j.uncached κ').convertOne w total i file s' =
          (s'.deliver s'.cache ⟨i + 1, total, file.relPath⟩ block
            { summary with relPath := file.relPath } false, none) ∧
        ((∃ c, j.cachedBlock? s.cache file.path (contentHash t) = none ∧
            j.convertOne w total i file s =
              (s.deliver c ⟨i + 1, total, file.relPath⟩ block
                { summary with relPath := file.relPath } false, none) ∧
            ops.Sound image j.table j.style known c) ∨
          ∃ b, b = image (blockOf file.path (contentHash t) block summary) ∧
            j.cachedBlock? s.cache file.path (contentHash t) = some b ∧
            j.convertOne w total i file s =
              (s.deliver s.cache ⟨i + 1, total, file.relPath⟩ b.block (summaryOf file b) true,
                none)) := by
  cases hr : w.read s.output file.path with
  | error f => exact .inl ⟨_, s.cache, convertOne_unread hr, convertOne_unread (hout ▸ hr), hs⟩
  | ok t =>
    have hr' : w.read s'.output file.path = .ok t := by rw [hout, hr]
    have hplain := produce_uncached j s'.cache file t
    obtain ⟨f, hok, hp⟩ | ⟨block, summary, hok, ⟨c, hc, hp, hs'⟩ | ⟨b, hb, hc, hp⟩⟩ :=
      produce_cases hj hk hs hinj (hread t hr) file <;> rw [hok] at hplain
    · exact .inl ⟨f, s.cache, convertOne_defect hr hp, convertOne_defect hr' hplain, hs⟩
    · cases ha : w.appendFault i with
      | some f =>
        exact .inl ⟨_, c, convertOne_unwritten hr hp ha, convertOne_unwritten hr' hplain ha, hs'⟩
      | none =>
        exact .inr ⟨t, block, summary, rfl, hok, convertOne_delivered hr' hplain ha,
          .inl ⟨c, hc, convertOne_delivered hr hp ha, hs'⟩⟩
    · cases ha : w.appendFault i with
      | some f =>
        exact .inl ⟨_, s.cache, convertOne_unwritten hr hp ha, convertOne_unwritten hr' hplain ha, hs⟩
      | none =>
        exact .inr ⟨t, block, summary, rfl, hok, convertOne_delivered hr' hplain ha,
          .inr ⟨b, hb, hc, convertOne_delivered hr hp ha⟩⟩

/-! ## Whole runs -/

variable {total i : Nat} {file : SourceFile} {files : List SourceFile} {t : Text}

theorem convertFrom_cons (hstop : w.stop i = none) (s : RunState κ) :
    j.convertFrom w total i (file :: files) s =
      match j.convertOne w total i file s with
      | (t, some f) => (t, some f)
      | (t, none) => j.convertFrom w total (i + 1) files t := by
  cases hone : j.convertOne w total i file s with
  | mk s₁ failed => cases failed <;> simp only [convertFrom, hstop, hone]

theorem visits_cons (hstop : w.stop i = none) (hr : w.read s.output file.path = .ok t) :
    j.visits w total i (file :: files) s =
      match j.convertOne w total i file s with
      | (_, some _) =>
        [⟨file.path, t, (j.cachedBlock? s.cache file.path (contentHash t)).isSome, false⟩]
      | (s₁, none) =>
        ⟨file.path, t, (j.cachedBlock? s.cache file.path (contentHash t)).isSome, true⟩ ::
          j.visits w total (i + 1) files s₁ := by
  simp only [visits, hstop, hr]

/-- What a run reads first is among the contents of its visits. -/
theorem mem_of_visits_cons (hstop : w.stop i = none)
    (hv : ∀ v ∈ j.visits w total i (file :: files) s, v.content ∈ known)
    (hr : w.read s.output file.path = .ok t) : t ∈ known := by
  rw [visits_cons hstop hr] at hv
  split at hv
  · exact hv _ List.mem_cons_self
  · exact hv _ List.mem_cons_self

/-- The visits after a file that was delivered. -/
theorem visits_of_delivered {s₁ : RunState κ} (hstop : w.stop i = none)
    (hr : w.read s.output file.path = .ok t) (hone : j.convertOne w total i file s = (s₁, none)) :
    j.visits w total i (file :: files) s =
      ⟨file.path, t, (j.cachedBlock? s.cache file.path (contentHash t)).isSome, true⟩ ::
        j.visits w total (i + 1) files s₁ := by
  rw [visits_cons hstop hr, hone]

/-- Dealing with a file leaves the cache as it is, or stores the block rendered from what was read. -/
theorem convertOne_cache (j : Job κ) (w : Surroundings) (total i : Nat) (file : SourceFile)
    (s : RunState κ) :
    (j.convertOne w total i file s).1.cache = s.cache ∨
      ∃ t b, w.read s.output file.path = .ok t ∧ IsRendered j.table j.style file.path t b ∧
        (j.convertOne w total i file s).1.cache = j.remember s.cache b := by
  cases hr : w.read s.output file.path with
  | error f => exact .inl (by simp only [convertOne, hr])
  | ok t =>
    rw [cache_convertOne hr]
    cases hc : j.cachedBlock? s.cache file.path (contentHash t) with
    | some b => exact .inl (by simp only [produce, hc])
    | none =>
      cases hok : convertFile j.table j.style file.path t with
      | error f => exact .inl (by simp only [produce, hc, hok])
      | ok r =>
        obtain ⟨block, summary⟩ := r
        exact .inr ⟨t, _, rfl, ⟨block, summary, hok, rfl⟩, by simp only [produce, hc, hok]⟩

/-- The visits after the first file are those of a run from there. -/
theorem mem_visits_of_delivered {s₁ : RunState κ} (hstop : w.stop i = none)
    (hone : j.convertOne w total i file s = (s₁, none)) {v : Visit}
    (hv : v ∈ j.visits w total (i + 1) files s₁) : v ∈ j.visits w total i (file :: files) s := by
  cases hr : w.read s.output file.path with
  | error f =>
    rw [convertOne_unread hr] at hone
    cases hone
  | ok t =>
    rw [visits_of_delivered hstop hr hone]
    exact List.mem_cons_of_mem _ hv

section Induction

variable {P : κ → Prop} (hj : j.cache = some (ops.faulty faults failure))
  (hput : ∀ {c c' : κ} {path t : Text} {b : CachedBlock}, t ∈ known →
    IsRendered j.table j.style path t b → ops.put c b = .ok c' → P c → P c')

include hj hput

theorem convertFrom_induction (hs : P s.cache)
    (hv : ∀ v ∈ j.visits w total i files s, v.content ∈ known) :
    P (j.convertFrom w total i files s).1.cache := by
  induction files generalizing i s with
  | nil => exact hs
  | cons file files ih =>
    cases hstop : w.stop i with
    | some f =>
      rw [convertFrom, hstop]
      exact hs
    | none =>
      have hfirst : P (j.convertOne w total i file s).1.cache := by
        obtain hcache | ⟨t, b, hr, hb, hcache⟩ := convertOne_cache j w total i file s <;> rw [hcache]
        · exact hs
        · simp only [remember, hj]
          split
          · next c' hstore => exact hput (mem_of_visits_cons hstop hv hr) hb (faulty_put hstore) hs
          · exact hs
      rw [convertFrom_cons hstop]
      cases hone : j.convertOne w total i file s with
      | mk s₁ failed =>
        rw [hone] at hfirst
        cases failed with
        | some f => exact hfirst
        | none => exact ih hfirst fun v hmem => hv v (mem_visits_of_delivered hstop hone hmem)

/-- What storing rendered blocks and deleting keep, a run keeps, wherever it ends. -/
theorem run_induction (hdelete : ∀ {c c' : κ} {p : Text}, ops.delete c p = .ok c' → P c → P c')
    {found : Outcome (List SourceFile)} {c : κ} (hc : P c)
    (hv : ∀ v ∈ j.runVisits w found c, v.content ∈ known) : P (j.run w found c).cache := by
  cases found with
  | error f => exact hc
  | ok files =>
    have hfrom := convertFrom_induction (s := { cache := c }) hj hput hc hv
    simp only [run, convertAll]
    generalize j.convertFrom w files.length 0 files { cache := c } = r at hfrom
    obtain ⟨s, _ | f⟩ := r
    · have hprune := prune_induction hdelete faults failure files hfrom
      simp only [finish, hj]
      generalize prune (ops.faulty faults failure) files s.cache = q at hprune
      obtain ⟨c', n, _ | f⟩ := q <;> exact hprune
    · exact hfrom

end Induction

/-- **A run keeps a sound cache sound**, whether it succeeds, fails, or cannot prune its cache. -/
theorem sound_run (hj : j.cache = some (ops.faulty faults failure)) (hk : ops.Keeps image)
    {found : Outcome (List SourceFile)} {c : κ} (hs : ops.Sound image j.table j.style known c)
    (hv : ∀ v ∈ j.runVisits w found c, v.content ∈ known) :
    ops.Sound image j.table j.style known (j.run w found c).cache :=
  run_induction hj (fun ht hb hput hs => hs.put hk ht hb hput) (fun hdel hs => hs.delete hk hdel) hs hv

end Job

/-! ## Requests -/

/-- A run that is asked for: the directory, the open file that blocks are appended to (they are
gathered in memory if there is none), and all that goes wrong on the way. -/
structure RunRequest where
  source : Text
  sink : Option OutputFile := none
  readFault : Text → Option Failure := fun _ => none
  appendFault : Nat → Option Failure := fun _ => none
  stop : Nat → Option Failure := fun _ => none
  faults : BlockCache.Faults := {}
  cacheFailure : Failure := Failure.ofMessage "cache fault"

namespace RunRequest

variable {κ : Type}

/-- The disk when a text has been written. -/
def view (r : RunRequest) (d : Disk) (written : Text) : Disk :=
  match r.sink with
  | none => d
  | some out => (out.append written).flush d

/-- What the run sees of a disk. -/
def surroundings (r : RunRequest) (d : Disk) : Surroundings where
  read written path :=
    match r.readFault path with
    | some f => .error f
    | none => (r.view d written).contentOf path
  appendFault := r.appendFault
  stop := r.stop

/-- The job of a project whose cache has the faults of the request. -/
def job (r : RunRequest) (p : Project) (cache : Option (BlockCache κ)) : Job κ :=
  p.job (cache.map fun ops => ops.faulty r.faults r.cacheFailure)

/-- How the run goes on a disk. -/
def report (r : RunRequest) (p : Project) (d : Disk) (cache : Option (BlockCache κ)) (c : κ) :
    RunReport κ :=
  (r.job p cache).run (r.surroundings d) (d.sources p.settings.scope r.source) c

/-- The files that the run visits. -/
def visits (r : RunRequest) (p : Project) (d : Disk) (cache : Option (BlockCache κ)) (c : κ) :
    List Visit :=
  (r.job p cache).runVisits (r.surroundings d) (d.sources p.settings.scope r.source) c

end RunRequest

/-! ## Histories -/

namespace History

variable {σ ε : Type} {step : σ → ε → σ} {reads : σ → ε → List Text}

/-- The contents of files that events read one after the other, where `reads` says what an event reads
in a state and `step` which state it leaves. -/
def contents (step : σ → ε → σ) (reads : σ → ε → List Text) : σ → List ε → List Text
  | _, [] => []
  | s, e :: events => reads s e ++ contents step reads (step s e) events

theorem mem_contents_concat {t : Text} (s : σ) (events : List ε) (e : ε) :
    t ∈ contents step reads s (events ++ [e]) ↔
      t ∈ contents step reads s events ∨ t ∈ reads (events.foldl step s) e := by
  induction events generalizing s with
  | nil => simp [contents]
  | cons a events ih =>
    rw [List.cons_append, contents, contents, List.mem_append, List.mem_append, ih, or_assoc]
    rfl

/-- What every event keeps that reads known contents only, a history keeps that reads known contents
only. -/
theorem invariant {I : σ → Prop} {known : Set Text} (events : List ε)
    (hstep : ∀ s, ∀ e ∈ events, (∀ t ∈ reads s e, t ∈ known) → I s → I (step s e)) {s : σ}
    (hreads : ∀ t ∈ contents step reads s events, t ∈ known) (hs : I s) : I (events.foldl step s) := by
  induction events generalizing s with
  | nil => exact hs
  | cons e events ih =>
    have hfirst : I (step s e) :=
      hstep s e List.mem_cons_self (fun t ht => hreads t (List.mem_append_left _ ht)) hs
    exact ih (fun s a ha => hstep s a (List.mem_cons_of_mem _ ha))
      (fun t ht => hreads t (List.mem_append_right _ ht)) hfirst

end History

end StubDecl
