import StubDecl.Proofs.Run.Memory

/-!
# What visits do to a cache in memory

`Job.visits_cases` says what a run does at its next file. From there by induction: which files are
visited (`Job.visits_paths`), how they are counted (`Job.convertFrom_counts`), and what the visits do to
the entries of the cache (`Job.Renewal`), a step for one visit (`Job.renewal_produce`) and a run of them
one after the other (`Job.renewal_convertFrom`). A run over files whose entries are current takes all
blocks from the cache and changes nothing (`Job.run_settled`).
-/

namespace StubDecl

/-- There is a block for the file with what was read. -/
def Visit.isProduced (m : TypeTable) (y : Style) (v : Visit) : Bool :=
  (convertFile m y v.path v.content).toOption.isSome

namespace Job

open BlockCache MemoryCache

section Visits

variable {κ : Type} {j : Job κ} {w : Surroundings} {file : SourceFile} {files : List SourceFile}
  {t : Text} {c c' : κ}

/-! ## The files that are visited -/

/-- The visit of a file with a given content. -/
def visitOf (j : Job κ) (c : κ) (file : SourceFile) (t : Text) (appended : Bool) : Visit where
  path := file.path
  content := t
  cached := (j.cachedBlock? c file.path (contentHash t)).isSome
  appended := appended

/-- At its next file a run ends without having read it, or ends after having read it, or delivers it
and goes on. -/
theorem visits_cases (j : Job κ) (w : Surroundings) (total i : Nat) (file : SourceFile)
    (files : List SourceFile) (s : RunState κ) :
    (∃ f, j.visits w total i (file :: files) s = [] ∧
        j.convertFrom w total i (file :: files) s = (s, some f)) ∨
      (∃ t f, j.visits w total i (file :: files) s = [j.visitOf s.cache file t false] ∧
        j.convertFrom w total i (file :: files) s =
          ({ s with cache := (j.produce s.cache file t).1 }, some f)) ∨
      ∃ (t : Text) (d : Delivery) (c : κ),
        j.produce s.cache file t = (c, .ok (d.block, d.summary, d.cached)) ∧
        j.visits w total i (file :: files) s = j.visitOf s.cache file t true ::
          j.visits w total (i + 1) files
            (s.deliver c ⟨i + 1, total, file.relPath⟩ d.block d.summary d.cached) ∧
        j.convertFrom w total i (file :: files) s = j.convertFrom w total (i + 1) files
          (s.deliver c ⟨i + 1, total, file.relPath⟩ d.block d.summary d.cached) := by
  cases hstop : w.stop i with
  | some f => exact .inl ⟨f, by simp only [visits, hstop], by simp only [convertFrom, hstop]⟩
  | none =>
    cases hr : w.read s.output file.path with
    | error f =>
      exact .inl ⟨_, by simp only [visits, hstop, hr],
        convertFrom_of_broken hstop (convertOne_unread hr)⟩
    | ok t =>
      obtain ⟨t', d, c, hr', hp, hone⟩ | ⟨c, f, hone, -⟩ := convertOne_outcome j total file s hstop
      · cases hr.symm.trans hr'
        exact .inr (.inr ⟨t, d, c, hp, visits_of_delivered hstop hr hone,
          convertFrom_of_delivered hstop hone⟩)
      · have hcache : (j.convertOne w total i file s).1.cache = (j.produce s.cache file t).1 :=
          cache_convertOne hr
        rw [hone] at hcache
        obtain rfl : c = (j.produce s.cache file t).1 := hcache
        refine .inr (.inl ⟨t, f, ?_, convertFrom_of_broken hstop hone⟩)
        rw [visits_cons hstop hr, hone]
        rfl

/-- The files that are visited are the first ones, and all of them if nothing fails. -/
theorem visits_paths (j : Job κ) (w : Surroundings) (total i : Nat) (files : List SourceFile)
    (s : RunState κ) :
    (j.visits w total i files s).map (·.path) <+: files.map (·.path) ∧
      ((j.convertFrom w total i files s).2 = none →
        (j.visits w total i files s).map (·.path) = files.map (·.path) ∧
          ∀ v ∈ j.visits w total i files s, v.appended = true) := by
  induction files generalizing i s with
  | nil => exact ⟨List.prefix_rfl, fun _ => ⟨rfl, List.forall_mem_nil _⟩⟩
  | cons file files ih =>
    obtain ⟨f, hvisits, hfrom⟩ | ⟨t, f, hvisits, hfrom⟩ | ⟨t, d, c, -, hvisits, hfrom⟩ :=
      visits_cases j w total i file files s <;> rw [hvisits, hfrom]
    · exact ⟨List.nil_prefix, nofun⟩
    · exact ⟨by simp [visitOf], nofun⟩
    · obtain ⟨hpre, hall⟩ :=
        ih (i + 1) (s.deliver c ⟨i + 1, total, file.relPath⟩ d.block d.summary d.cached)
      refine ⟨by simpa [visitOf] using hpre, fun hnone => ?_⟩
      obtain ⟨hpaths, happended⟩ := hall hnone
      exact ⟨by simpa [visitOf] using hpaths, List.forall_mem_cons.mpr ⟨rfl, happended⟩⟩

/-- A run without failure has visited all files. -/
theorem runVisits_of_none (h : (j.run w (.ok files) c).failure = none) :
    (j.runVisits w (.ok files) c).map (·.path) = files.map (·.path) ∧
      ∀ v ∈ j.runVisits w (.ok files) c, v.appended = true := by
  refine (visits_paths j w files.length 0 files { cache := c }).2 ?_
  cases hfrom : j.convertFrom w files.length 0 files { cache := c } with
  | mk s failed =>
    cases failed with
    | some f =>
      rw [run_of_broken hfrom] at h
      exact absurd h (Option.some_ne_none f)
    | none => rfl

/-! ## Counting -/

/-- A block came from the cache if the cache has it. -/
theorem produce_flag {block : Text} {summary : Summary} {cached : Bool}
    (h : j.produce c file t = (c', .ok (block, summary, cached))) :
    (j.cachedBlock? c file.path (contentHash t)).isSome = cached := by
  cases hc : j.cachedBlock? c file.path (contentHash t) with
  | some b =>
    simp only [produce, hc, Prod.mk.injEq, Except.ok.injEq] at h
    exact h.2.2.2
  | none =>
    cases hok : convertFile j.table j.style file.path t with
    | error f => simp [produce, hc, hok] at h
    | ok r =>
      simp only [produce, hc, hok, Prod.mk.injEq, Except.ok.injEq] at h
      exact h.2.2.2

/-- The blocks that were appended are counted by where they came from. -/
theorem convertFrom_counts (j : Job κ) (w : Surroundings) (total i : Nat) (files : List SourceFile)
    (s : RunState κ) :
    (j.convertFrom w total i files s).1.stats.cached = s.stats.cached +
        Int64.ofNat ((j.visits w total i files s).countP fun v => v.appended && v.cached) ∧
      (j.convertFrom w total i files s).1.stats.converted = s.stats.converted +
        Int64.ofNat ((j.visits w total i files s).countP fun v => v.appended && !v.cached) := by
  induction files generalizing i s with
  | nil => simp [visits, convertFrom]
  | cons file files ih =>
    obtain ⟨f, hvisits, hfrom⟩ | ⟨t, f, hvisits, hfrom⟩ | ⟨t, d, c, hp, hvisits, hfrom⟩ :=
      visits_cases j w total i file files s <;> rw [hvisits, hfrom]
    · simp
    · simp [visitOf]
    · obtain ⟨hcached, hconverted⟩ :=
        ih (i + 1) (s.deliver c ⟨i + 1, total, file.relPath⟩ d.block d.summary d.cached)
      rw [hcached, hconverted, visitOf, produce_flag hp]
      cases d.cached <;>
        simp [RunState.deliver, count, Int64.ofNat_add, Int64.add_assoc, Int64.add_comm]

/-- Pruning is not counted as dealing with a file. -/
theorem finish_counts (j : Job κ) (files : List SourceFile) (s : RunState κ) :
    (j.finish files s).1.stats.cached = s.stats.cached ∧
      (j.finish files s).1.stats.converted = s.stats.converted := by
  simp only [finish]
  cases j.cache with
  | none => exact ⟨rfl, rfl⟩
  | some ops =>
    simp only
    obtain ⟨c, n, _ | f⟩ := prune ops files s.cache <;> exact ⟨rfl, rfl⟩

theorem run_counts (j : Job κ) (w : Surroundings) (files : List SourceFile) (c : κ) :
    ∃ stats summaries, (j.run w (.ok files) c).result = some (stats, summaries) ∧
      stats.cached =
        Int64.ofNat ((j.runVisits w (.ok files) c).countP fun v => v.appended && v.cached) ∧
      stats.converted =
        Int64.ofNat ((j.runVisits w (.ok files) c).countP fun v => v.appended && !v.cached) := by
  obtain ⟨hcached, hconverted⟩ := convertFrom_counts j w files.length 0 files { cache := c }
  rw [show ({ cache := c } : RunState κ).stats.cached = 0 from rfl, Int64.zero_add] at hcached
  rw [show ({ cache := c } : RunState κ).stats.converted = 0 from rfl, Int64.zero_add] at hconverted
  cases hfrom : j.convertFrom w files.length 0 files { cache := c } with
  | mk s failed =>
    rw [hfrom] at hcached hconverted
    cases failed with
    | some f =>
      rw [run_of_broken hfrom]
      exact ⟨s.stats, s.files, rfl, hcached, hconverted⟩
    | none =>
      obtain ⟨hc, hd⟩ := finish_counts j files s
      rw [run_of_delivered hfrom]
      exact ⟨_, _, rfl, hc.trans hcached, hd.trans hconverted⟩

end Visits

variable {j : Job MemoryCache} {w : Surroundings} {c c₁ c' : MemoryCache} {file : SourceFile}
  {files done : List SourceFile} {t : Text} {s : RunState MemoryCache} {total i : Nat} {v : Visit}
  {vs : List Visit}

/-! ## The entries of the cache -/

/-- Visits that turn the cache `c` into `c'`: the block of a file came from the cache if `c` had an
entry for its content, each block that was produced is in `c'`, and all other entries are as they
were. -/
structure Renewal (j : Job MemoryCache) (c c' : MemoryCache) (vs : List Visit) : Prop where
  cached : ∀ v ∈ vs, v.cached = true ↔ c.Holds v.path v.content
  produced : ∀ v ∈ vs, v.isProduced j.table j.style = true → c'.Holds v.path v.content
  others : ∀ q, (∀ v ∈ vs, v.isProduced j.table j.style = true → v.path ≠ q) → c'.get? q = c.get? q

theorem renewal_nil : Renewal j c c [] :=
  ⟨List.forall_mem_nil _, List.forall_mem_nil _, fun _ _ => rfl⟩

theorem isSome_cachedBlock?_iff (hj : j.cache = some memory) (path : Text) :
    (j.cachedBlock? c path (contentHash t)).isSome = true ↔ c.Holds path t := by
  rw [cachedBlock?_memory hj, Option.isSome_iff_exists]
  simp only [Option.filter_eq_some_iff, decide_eq_true_eq, Holds]

/-- **One visit.** -/
theorem renewal_produce (hj : j.cache = some memory) (c : MemoryCache) (file : SourceFile) (t : Text)
    (appended : Bool) :
    Renewal j c (j.produce c file t).1 [j.visitOf c file t appended] := by
  refine ⟨List.forall_mem_singleton.mpr (isSome_cachedBlock?_iff hj file.path), ?_, fun q hq => ?_⟩
  · rw [List.forall_mem_singleton]
    intro hproduced
    obtain ⟨b, hget, hhash, hp⟩ | ⟨f, hok, -⟩ | ⟨block, summary, -, hp⟩ := produce_memory hj c file t
    · rw [hp]
      exact ⟨b, hget, hhash⟩
    · simp [Visit.isProduced, visitOf, hok, Except.toOption] at hproduced
    · rw [hp]
      exact (renews_put rfl rfl rfl).holds
  · rw [List.forall_mem_singleton] at hq
    obtain ⟨b, -, -, hp⟩ | ⟨f, -, hp⟩ | ⟨block, summary, hok, hp⟩ := produce_memory hj c file t <;> rw [hp]
    -- only a block that was rendered is stored
    refine (renews_put rfl rfl rfl).others q (Ne.symm (hq ?_))
    simp [Visit.isProduced, visitOf, hok, Except.toOption]

/-- A visit before others, of another file. -/
theorem Renewal.cons (h : Renewal j c c₁ [v]) (hvs : Renewal j c₁ c' vs)
    (hnew : v.path ∉ vs.map (·.path)) : Renewal j c c' (v :: vs) := by
  have hne : ∀ v' ∈ vs, v.path ≠ v'.path := fun v' hv' heq => hnew (heq ▸ List.mem_map_of_mem hv')
  have hfirst : ∀ q, v.path ≠ q → c₁.get? q = c.get? q := by
    intro q hq
    refine h.others q ?_
    rw [List.forall_mem_singleton]
    exact fun _ => hq
  refine ⟨?_, ?_, fun q hq => ?_⟩
  · refine List.forall_mem_cons.mpr ⟨h.cached v (by simp), fun v' hv' => ?_⟩
    rw [hvs.cached v' hv', Holds, Holds, hfirst v'.path (hne v' hv')]
  · refine List.forall_mem_cons.mpr ⟨fun hv => ?_, hvs.produced⟩
    rw [Holds, hvs.others v.path fun v' hv' _ => (hne v' hv').symm]
    exact h.produced v (by simp) hv
  · obtain ⟨hv, hq⟩ := List.forall_mem_cons.mp hq
    rw [hvs.others q hq]
    exact h.others q (by rwa [List.forall_mem_singleton])

/-- **The visits of a run, one after the other.** -/
theorem renewal_convertFrom (hj : j.cache = some memory) (hnodup : (files.map (·.path)).Nodup) :
    Renewal j s.cache (j.convertFrom w total i files s).1.cache (j.visits w total i files s) := by
  induction files generalizing i s with
  | nil => exact renewal_nil
  | cons file files ih =>
    obtain ⟨hnew, hrest⟩ := List.nodup_cons.mp hnodup
    obtain ⟨f, hvisits, hfrom⟩ | ⟨t, f, hvisits, hfrom⟩ | ⟨t, d, c, hp, hvisits, hfrom⟩ :=
      visits_cases j w total i file files s <;> rw [hvisits, hfrom]
    · exact renewal_nil
    · exact renewal_produce hj s.cache file t false
    · have hfirst := renewal_produce hj s.cache file t true
      rw [hp] at hfirst
      refine hfirst.cons (ih (s := s.deliver c _ d.block d.summary d.cached) hrest) fun hmem => ?_
      exact hnew ((visits_paths ..).1.subset hmem)

/-- What a run does to the entry of a file for which it produced no block: the entry is dropped if the
run completed without walking the file. -/
theorem renewal_run (hj : j.cache = some memory) (hnodup : (files.map (·.path)).Nodup)
    (w : Surroundings) (c : MemoryCache) :
    (∀ v ∈ j.runVisits w (.ok files) c, v.cached = true ↔ c.Holds v.path v.content) ∧
      (∀ v ∈ j.runVisits w (.ok files) c, v.isProduced j.table j.style = true →
        (j.run w (.ok files) c).cache.Holds v.path v.content) ∧
      ∀ q, (∀ v ∈ j.runVisits w (.ok files) c, v.isProduced j.table j.style = true → v.path ≠ q) →
        (j.run w (.ok files) c).cache.get? q =
          if (j.run w (.ok files) c).failure = none ∧ q ∉ files.map (·.path) then none
          else c.get? q := by
  have hrenewal : Renewal j c (j.convertFrom w files.length 0 files { cache := c }).1.cache
      (j.visits w files.length 0 files { cache := c }) :=
    renewal_convertFrom (s := { cache := c }) hj hnodup
  have hpaths := (visits_paths j w files.length 0 files { cache := c }).1.subset
  simp only [runVisits]
  generalize hvs : j.visits w files.length 0 files { cache := c } = vs at hrenewal hpaths
  cases hfrom : j.convertFrom w files.length 0 files { cache := c } with
  | mk s failed =>
    rw [hfrom] at hrenewal
    cases failed with
    | some f =>
      rw [run_of_broken hfrom]
      refine ⟨hrenewal.cached, hrenewal.produced, fun q hq => ?_⟩
      rw [if_neg fun h => absurd h.1 (Option.some_ne_none f)]
      exact hrenewal.others q hq
    | none =>
      rw [run_of_delivered hfrom, finish_memory hj]
      refine ⟨hrenewal.cached, fun v hv hproduced => ?_, fun q hq => ?_⟩
      · simp only [reportOf, Holds, get?_prune_memory, if_pos (hpaths (List.mem_map_of_mem hv))]
        exact hrenewal.produced v hv hproduced
      · simp only [reportOf, get?_prune_memory, true_and, ite_not]
        rw [hrenewal.others q hq]

/-! ## Runs that change nothing -/

/-- A run that has taken the blocks of the files `done` from the cache and done nothing else. -/
structure Settled (c : MemoryCache) (done : List SourceFile) (s : RunState MemoryCache) : Prop where
  cache : s.cache = c
  output : s.output = c.blocks done
  converted : s.stats.converted = 0
  pruned : s.stats.pruned = 0

/-- A file whose entry is current is taken from the cache. -/
theorem convertOne_settled (hj : j.cache = some memory) (h : Settled c done s)
    (hread : w.read (c.blocks done) file.path = .ok t) (hholds : c.Holds file.path t) (total i : Nat) :
    (∃ s', j.convertOne w total i file s = (s', none) ∧ Settled c (done ++ [file]) s') ∨
      ∃ s' f, j.convertOne w total i file s = (s', some f) ∧ Settled c done s' ∧
        w.appendFault i ≠ none := by
  obtain ⟨b, hget, hhash⟩ := hholds
  have hcached : j.cachedBlock? s.cache file.path (contentHash t) = some b := by
    rw [cachedBlock?_memory hj, h.cache, hget, Option.filter_some, if_pos (decide_eq_true hhash)]
  have hp : j.produce s.cache file t = (s.cache, .ok (b.block, summaryOf file b, true)) := by
    simp only [produce, hcached]
  rw [← h.output] at hread
  cases ha : w.appendFault i with
  | some f =>
    refine .inr ⟨_, _, convertOne_unwritten hread hp ha, ?_, Option.some_ne_none f⟩
    exact ⟨h.cache, h.output, h.converted, h.pruned⟩
  | none =>
    refine .inl ⟨_, convertOne_delivered hread hp ha, h.cache, ?_, h.converted, h.pruned⟩
    rw [RunState.deliver_output, h.output, blocks_concat, hget, Option.map_some, Option.getD_some]

theorem convertFrom_settled (hj : j.cache = some memory) (hc : c.Current w (done ++ files))
    (h : Settled c done s) (total i : Nat) :
    ∃ now s' failed, now <+: files ∧ j.convertFrom w total i files s = (s', failed) ∧
      Settled c (done ++ now) s' ∧ (failed = none → now = files) ∧
      ((∀ i, w.stop i = none) → (∀ i, w.appendFault i = none) → failed = none) := by
  induction files generalizing done s i with
  | nil => exact ⟨[], s, none, List.prefix_rfl, rfl, by simpa using h, fun _ => rfl, fun _ _ => rfl⟩
  | cons file files ih =>
    cases hstop : w.stop i with
    | some f =>
      refine ⟨[], s, some f, List.nil_prefix, by simp only [convertFrom, hstop], by simpa using h,
        nofun, fun hnone => ?_⟩
      exact absurd (hstop.symm.trans (hnone i)) (Option.some_ne_none f)
    | none =>
      obtain ⟨t, hread, hholds⟩ := hc done file files rfl
      obtain ⟨s₁, hone, hs₁⟩ | ⟨s₁, f, hone, hs₁, hfault⟩ :=
        convertOne_settled hj h hread hholds total i
      · obtain ⟨now, s', failed, hpre, hfrom, hs', hall, hnone⟩ :=
          ih (by simpa using hc) hs₁ (i + 1)
        rw [convertFrom_of_delivered hstop hone]
        refine ⟨file :: now, s', failed, (List.prefix_cons_inj file).mpr hpre, hfrom,
          by simpa using hs', fun h => ?_, hnone⟩
        rw [hall h]
      · rw [convertFrom_of_broken hstop hone]
        exact ⟨[], s₁, some f, List.nil_prefix, rfl, by simpa using hs₁, nofun,
          fun _ happend => absurd (happend i) hfault⟩

/-- A run over files whose entries are current, where no others are in the cache. -/
theorem run_settled (hj : j.cache = some memory) (hc : c.Current w files)
    (hkeys : ∀ q ∈ c.keys, q ∈ files.map (·.path)) :
    ∃ now s' failed, now <+: files ∧ j.run w (.ok files) c = reportOf s' failed ∧
      Settled c now s' ∧ (failed = none → now = files) ∧
      ((∀ i, w.stop i = none) → (∀ i, w.appendFault i = none) → failed = none) := by
  obtain ⟨now, s', failed, hpre, hfrom, hs', hall, hnone⟩ :=
    convertFrom_settled hj hc (⟨rfl, rfl, rfl, rfl⟩ : Settled c [] { cache := c }) files.length 0
  cases failed with
  | some f => exact ⟨now, s', some f, hpre, run_of_broken hfrom, hs', hall, hnone⟩
  | none =>
    have hstale : s'.cache.stale files = [] := by
      rw [stale, hs'.cache, List.filter_eq_nil_iff]
      simpa using hkeys
    refine ⟨now, (j.finish files s').1, none, hpre, ?_, ?_, hall, hnone⟩
    · rw [run_of_delivered hfrom, finish_memory hj]
    · rw [finish_memory hj]
      exact ⟨by simpa [prune_memory, hstale] using hs'.cache, hs'.output, hs'.converted,
        by simp [hstale]⟩

end Job

end StubDecl
