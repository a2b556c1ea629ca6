import StubDecl.Proofs.Run.Visit

/-!
# A cache in memory cannot be seen

A `Site` is a disk with a cache in memory. Files are changed and runs are made in any order, and a run
may end anywhere: at a defect, at a file that cannot be read or appended, by a stop, or because the
cache could not be pruned. Whatever has happened, the next run gives what it would give without a
cache (`Site.report_eq_uncached`), as long as digests tell apart the contents that were read. A run
with a cache is followed beside one without (`RunState.Agrees`), and the cache is sound after every
event (`Site.sound_after`).
-/

namespace StubDecl

/-- The statistics without telling which blocks were cached and how many were pruned. -/
def RunStats.merged (t : RunStats) : RunStats :=
  { t with converted := t.converted + t.cached, cached := 0, pruned := 0 }

/-- What can be seen of a run from outside: its output, its progress, its statistics and summaries, and
its failure. -/
def RunReport.visible {κ : Type} (r : RunReport κ) : RunReport Unit :=
  { cache := (), output := r.output, progress := r.progress
    result := r.result.map fun (t, files) => (t.merged, files), failure := r.failure }

theorem Job.merged_count {t t' : RunStats} (h : t.merged = t'.merged) (block : Text) (s : Summary)
    (cached cached' : Bool) :
    (count t block s cached).merged = (count t' block s cached').merged := by
  have hstep : ∀ (t : RunStats) (k : Bool), (count t block s k).merged =
      { t.merged with
        converted := t.merged.converted + 1
        classCount := t.merged.classCount + 1
        methodCount := t.merged.methodCount + s.methodCount
        variableCount := t.merged.variableCount + s.variableCount
        bytes := t.merged.bytes + Int64.ofNat block.length } := by
    intro t k
    cases k <;> simp only [RunStats.merged, count, RunStats.mk.injEq, and_self, and_true] <;> grind
  rw [hstep, hstep, h]

/-! ## A run beside one without a cache -/

/-- Two runs have written and counted the same. -/
structure RunState.Agrees {κ κ' : Type} (s : RunState κ) (s' : RunState κ') : Prop where
  output : s.output = s'.output
  files : s.files = s'.files
  progress : s.progress = s'.progress
  stats : s.stats.merged = s'.stats.merged

theorem RunState.Agrees.deliver {κ κ' : Type} {s : RunState κ} {s' : RunState κ'} (h : s.Agrees s')
    (c : κ) (c' : κ') (done : Progress) (block : Text) (summary : Summary) (cached cached' : Bool) :
    (s.deliver c done block summary cached).Agrees (s'.deliver c' done block summary cached') where
  output := congrArg (· ++ block) h.output
  files := congrArg (· ++ [summary]) h.files
  progress := congrArg (· ++ [done]) h.progress
  stats := Job.merged_count h.stats block summary cached cached'

namespace Job

open BlockCache

variable {κ κ' : Type} {ops : BlockCache κ} {faults : Faults} {failure : Failure} {j : Job κ}
  {known : Set Text} {w : Surroundings} {s : RunState κ} {s' : RunState κ'} {files : List SourceFile}

/-- What a block in the cache says about its file is what rendering says. -/
theorem summaryOf_blockOf {m : TypeTable} {y : Style} {file : SourceFile} {content block hash : Text}
    {summary : Summary} (h : convertFile m y file.path content = .ok (block, summary)) :
    summaryOf file (blockOf file.path hash block summary) =
      { summary with relPath := file.relPath } := by
  simp only [summaryOf, blockOf, convertFile_path h]

/-- Runs that agree go on to agree over the same files, and end with the same failure. -/
theorem agrees_convertFrom (hj : j.cache = some (ops.faulty faults failure)) (hk : ops.Keeps id)
    (hinj : Set.InjOn contentHash known) (hs : ops.Sound id j.table j.style known s.cache)
    {total i : Nat} (hv : ∀ v ∈ j.visits w total i files s, v.content ∈ known) (h : s.Agrees s') :
    (j.convertFrom w total i files s).1.Agrees ((j.uncached κ').convertFrom w total i files s').1 ∧
      (j.convertFrom w total i files s).2 = ((j.uncached κ').convertFrom w total i files s').2 := by
  induction files generalizing i s s' with
  | nil => exact ⟨h, rfl⟩
  | cons file files ih =>
    cases hstop : w.stop i with
    | some f =>
      rw [convertFrom, convertFrom, hstop]
      exact ⟨h, rfl⟩
    | none =>
      rw [convertFrom_cons hstop, convertFrom_cons hstop]
      obtain ⟨f, c, hone, hplain, -⟩ | ⟨t, block, summary, -, hok, hplain, hcase⟩ :=
        convertOne_cases hj hk hs hinj total i (fun t => mem_of_visits_cons hstop hv) h.output.symm
      · rw [hone, hplain]
        exact ⟨⟨h.output, h.files, h.progress, h.stats⟩, rfl⟩
      · rw [hplain]
        obtain ⟨c, -, hone, hs'⟩ | ⟨b, rfl, -, hone⟩ := hcase
        · rw [hone]
          exact ih hs' (fun v hmem => hv v (mem_visits_of_delivered hstop hone hmem)) (h.deliver ..)
        · rw [id_eq, summaryOf_blockOf hok] at hone
          rw [hone]
          refine ih ?_ (fun v hmem => hv v (mem_visits_of_delivered hstop hone hmem)) (h.deliver ..)
          exact hs

/-- Pruning succeeds if the paths can be listed and deleted. -/
theorem prune_eq_none (hpaths : ∀ c, ∃ ps, ops.paths c = .ok ps)
    (hdelete : ∀ c p, ∃ c', ops.delete c p = .ok c') (files : List SourceFile) (c : κ) :
    (prune ops files c).2.2 = none := by
  have hstale : ∀ (stale : Text → Bool) (ps : List Text) (c : κ) (n : Nat),
      (deleteStale ops stale ps c n).2.2 = none := by
    intro stale ps
    induction ps with
    | nil => exact fun _ _ => rfl
    | cons p ps ih =>
      intro c n
      obtain ⟨c', hdel⟩ := hdelete c p
      simp only [deleteStale, hdel]
      split
      · exact ih c' (n + 1)
      · exact ih c n
  obtain ⟨ps, hps⟩ := hpaths c
  simp only [prune, hps]
  exact hstale _ ps c 0

theorem finish_uncached (j : Job κ) (files : List SourceFile) (s' : RunState κ') :
    (j.uncached κ').finish files s' = (s', none) := rfl

/-- Ending a run does not tell it from one without a cache, if pruning succeeds. -/
theorem agrees_finish (hj : j.cache = some ops) (hprune : (prune ops files s.cache).2.2 = none)
    (h : s.Agrees s') : (j.finish files s).1.Agrees s' ∧ (j.finish files s).2 = none := by
  simp only [finish, hj]
  generalize prune ops files s.cache = q at hprune
  obtain ⟨c, n, f⟩ := q
  cases hprune
  exact ⟨⟨h.output, h.files, h.progress, h.stats⟩, rfl⟩

/-- A run with a sound cache that gives back what was stored looks like one without a cache. -/
theorem visible_run (hj : j.cache = some (ops.faulty faults failure)) (hk : ops.Keeps id)
    (hinj : Set.InjOn contentHash known) {c : κ} (hs : ops.Sound id j.table j.style known c)
    {found : Outcome (List SourceFile)} (hv : ∀ v ∈ j.runVisits w found c, v.content ∈ known)
    (hprune : ∀ files c, (prune (ops.faulty faults failure) files c).2.2 = none) (c' : κ') :
    (j.run w found c).visible = ((j.uncached κ').run w found c').visible := by
  cases found with
  | error f => rfl
  | ok files =>
    have hagree : RunState.Agrees { cache := c } { cache := c' } := ⟨rfl, rfl, rfl, rfl⟩
    obtain ⟨hfrom, hfail⟩ := agrees_convertFrom hj hk hinj hs hv hagree
    simp only [run, convertAll]
    generalize j.convertFrom w files.length 0 files { cache := c } = r at hfrom hfail
    generalize (j.uncached κ').convertFrom w files.length 0 files { cache := c' } = r' at hfrom hfail
    obtain ⟨s, f⟩ := r
    obtain ⟨s', f'⟩ := r'
    obtain rfl : f = f' := hfail
    replace hfrom : s.Agrees s' := hfrom
    cases f with
    | some f =>
      simp only [RunReport.visible, Option.map_some, hfrom.output, hfrom.files, hfrom.progress,
        hfrom.stats]
    | none =>
      obtain ⟨hend, hnone⟩ := agrees_finish hj (hprune files s.cache) hfrom
      simp only [RunReport.visible, Option.map_some, finish_uncached, hend.output, hend.files,
        hend.progress, hend.stats, hnone]

end Job

/-! ## Histories -/

/-- A disk, and a cache in memory that all runs share. -/
structure Site where
  disk : Disk
  cache : MemoryCache := []

namespace Site

open BlockCache

/-- What happens at a site: somebody changes files, or a run is made. -/
inductive Event where
  | change (c : Disk.Change)
  | run (r : RunRequest)

/-- The site after an event. A run leaves its output on the disk, if it goes to a file. -/
def step (p : Project) (s : Site) : Event → Site
  | .change c => { s with disk := s.disk.apply c }
  | .run r =>
    let report := r.report p s.disk (some memory) s.cache
    { disk := r.view s.disk report.output, cache := report.cache }

/-- The site after a history. -/
def after (p : Project) (s : Site) (history : List Event) : Site := history.foldl (step p) s

/-- The contents of files that an event reads. -/
def reads (p : Project) (s : Site) : Event → List Text
  | .change _ => []
  | .run r => (r.visits p s.disk (some memory) s.cache).map (·.content)

/-- The contents of files that a history reads. -/
def contents (p : Project) (s : Site) (history : List Event) : List Text :=
  History.contents (step p) (reads p) s history

variable {p : Project} {s : Site} {known : Set Text}

/-- Every event keeps the cache sound. -/
theorem sound_step (e : Event) (hreads : ∀ t ∈ s.reads p e, t ∈ known)
    (hs : memory.Sound id p.settings.typeTable p.settings.style known s.cache) :
    memory.Sound id p.settings.typeTable p.settings.style known (s.step p e).cache := by
  cases e with
  | change c => exact hs
  | run r =>
    refine Job.sound_run (j := r.job p (some memory)) rfl memory_keeps hs fun v hmem => ?_
    exact hreads _ (List.mem_map_of_mem hmem)

/-- Every history keeps the cache sound. -/
theorem sound_after (history : List Event) (hreads : ∀ t ∈ s.contents p history, t ∈ known)
    (hs : memory.Sound id p.settings.typeTable p.settings.style known s.cache) :
    memory.Sound id p.settings.typeTable p.settings.style known (s.after p history).cache := by
  refine History.invariant history (fun s e _ => sound_step e) hreads ?_
  exact hs

/-- **A run looks as it would without a cache**, after any history of changes and runs that shared the
cache and however these ended. The cache may fail to look up and to store blocks in this run too, but
not to list and delete them. -/
theorem report_eq_uncached (p : Project) (d : Disk) (history : List Event) (r : RunRequest)
    (hpaths : r.faults.paths = false) (hdelete : ∀ q, r.faults.delete q = false)
    (hinj : Set.InjOn contentHash { t | t ∈ contents p { disk := d } (history ++ [.run r]) }) :
    let s := after p { disk := d } history
    (r.report p s.disk (some memory) s.cache).visible =
      (r.report p s.disk none ()).visible := by
  intro s
  have hread : ∀ t, t ∈ contents p { disk := d } history ∨ t ∈ s.reads p (.run r) →
      t ∈ { t | t ∈ contents p { disk := d } (history ++ [.run r]) } :=
    fun t => (History.mem_contents_concat _ history _).mpr
  have hsound := sound_after history (fun t ht => hread t (.inl ht))
    (memory_sound_nil p.settings.typeTable p.settings.style _)
  refine Job.visible_run (j := r.job p (some memory)) rfl memory_keeps hinj hsound
    (fun v hmem => hread _ (.inr (List.mem_map_of_mem hmem))) ?_ ()
  refine Job.prune_eq_none (fun c => ⟨c.keys, ?_⟩) (fun c q => ⟨c.erase q, ?_⟩)
  · simp only [faulty, hpaths, memory, Bool.false_eq_true, if_false]
  · simp only [faulty, hdelete, memory, Bool.false_eq_true, if_false]

/-- A class is converted and renamed, and the run after that cannot append its block. -/
def renamedClass : List Event :=
  [.change (.write "/A.js" "function A"), .run { source := "/" },
    .change (.write "/A.js" "function B"),
    .run { source := "/", appendFault := fun _ => some (Failure.ofMessage "disk full") }]

theorem report_eq_uncached_renamedClass :
    let p : Project := { dir := "/" }
    let s := after p { disk := {} } renamedClass
    let r : RunRequest := { source := "/" }
    (r.visits p s.disk (some memory) s.cache).map (·.cached) = [true] ∧
      (r.report p s.disk (some memory) s.cache).visible = (r.report p s.disk none ()).visible := by
  have hinj : ∀ t ∈ contents { dir := "/" } { disk := {} } (renamedClass ++ [.run { source := "/" }]),
      ∀ u ∈ contents { dir := "/" } { disk := {} } (renamedClass ++ [.run { source := "/" }]),
        contentHash t = contentHash u → t = u := by
    decide +kernel
  exact ⟨by decide +kernel, report_eq_uncached _ _ _ _ rfl (fun _ => rfl)
    fun t ht u hu => hinj t ht u hu⟩

end Site

end StubDecl
