import StubDecl.Proofs.Run.Renewal
import StubDecl.Proofs.Run.Transparency

/-!
# Which blocks come from the cache

A run takes the block of a file from the cache if and only if an earlier run has produced one from the
same content, no run has produced another since, and no run has completed since without walking the
file (`Site.cached_iff_serves`). `RunRecord` is what is to be known of a run for this, and
`RunRecord.Serves` says it of a log of runs. A run keeps the cache in step with the log
(`Site.Mirrored.run`), so it is in step after every history (`Site.Mirrored.after`).
-/

namespace StubDecl

/-! ## Logs -/

/-- What a run did: the paths for which it produced a block, with the contents it read, and the paths
that it walked, if it did not fail. -/
structure RunRecord where
  produced : List (Text × Text)
  walked : Option (List Text)
  deriving DecidableEq, Repr

namespace RunRecord

/-- The last run in the log that produced a block for the path read the content, and every run since
then that did not fail walked the path. -/
def Serves (log : List RunRecord) (path content : Text) : Prop :=
  ∃ before last after, log = before ++ last :: after ∧ (path, content) ∈ last.produced ∧
    ∀ r ∈ after, path ∉ r.produced.map (·.1) ∧ ∀ ps, r.walked = some ps → path ∈ ps

variable {log : List RunRecord} {r : RunRecord} {path t : Text}

theorem not_serves_nil : ¬Serves [] path t := by
  rintro ⟨before, last, after, h, -⟩
  simp at h

/-- One run more serves what it produced itself, and what was served before if it leaves it alone. -/
theorem serves_concat : Serves (log ++ [r]) path t ↔
    (path, t) ∈ r.produced ∨
      Serves log path t ∧ path ∉ r.produced.map (·.1) ∧ ∀ ps, r.walked = some ps → path ∈ ps := by
  constructor
  · rintro ⟨before, last, after, hlog, hmem, hafter⟩
    obtain rfl | ⟨after, r', rfl⟩ := List.eq_nil_or_concat after
    · obtain ⟨-, heq⟩ := List.append_inj' hlog rfl
      cases heq
      exact .inl hmem
    · rw [List.concat_eq_append] at hlog hafter
      rw [← List.cons_append, ← List.append_assoc] at hlog
      obtain ⟨rfl, heq⟩ := List.append_inj' hlog rfl
      cases heq
      refine .inr ⟨⟨before, last, after, rfl, hmem, ?_⟩, hafter r (by simp)⟩
      exact fun r' hr' => hafter r' (List.mem_append_left _ hr')
  · rintro (hmem | ⟨⟨before, last, after, rfl, hmem, hafter⟩, hlast⟩)
    · exact ⟨log, r, [], rfl, hmem, List.forall_mem_nil _⟩
    · refine ⟨before, last, after ++ [r], by simp, hmem, fun r' hr' => ?_⟩
      obtain hr' | hr' := List.mem_append.mp hr'
      · exact hafter r' hr'
      · rw [List.mem_singleton.mp hr']
        exact hlast

end RunRecord

namespace RunRequest

open BlockCache

/-- No fault befalls the cache, and the output goes to a place that a disk can have. -/
structure Plain (r : RunRequest) : Prop where
  faults : r.faults = {}
  isName : ∀ out, r.sink = some out → ∀ n ∈ out.place, n.IsName

/-- The second of two requests finds the same files with the same contents. -/
def Repeats (r : RunRequest) (p : Project) (d : Disk) (r' : RunRequest) (d' : Disk) : Prop :=
  d'.sources p.settings.scope r'.source = d.sources p.settings.scope r.source ∧
    ∀ files, d.sources p.settings.scope r.source = .ok files → ∀ file ∈ files, ∀ out,
      (r'.surroundings d').read out file.path = (r.surroundings d).read out file.path

/-- What is to be known of a run with a cache in memory. -/
def record (r : RunRequest) (p : Project) (d : Disk) (c : MemoryCache) : RunRecord where
  produced :=
    ((r.visits p d (some memory) c).filter
      (Visit.isProduced p.settings.typeTable p.settings.style)).map fun v => (v.path, v.content)
  walked :=
    match d.sources p.settings.scope r.source, (r.report p d (some memory) c).failure with
    | .ok files, none => some (files.map (·.path))
    | _, _ => none

variable {r : RunRequest} {p : Project} {d : Disk} {c : MemoryCache} {path t : Text}

theorem mem_produced_iff : (path, t) ∈ (r.record p d c).produced ↔
    ∃ v ∈ r.visits p d (some memory) c,
      v.isProduced p.settings.typeTable p.settings.style = true ∧ v.path = path ∧ v.content = t := by
  simp [record, and_assoc]

theorem mem_paths_produced_iff : path ∈ (r.record p d c).produced.map (·.1) ↔
    ∃ v ∈ r.visits p d (some memory) c,
      v.isProduced p.settings.typeTable p.settings.style = true ∧ v.path = path := by
  simp [record, and_assoc]

/-- What a run does to the entries of the cache, in terms of its record. -/
theorem renewal_report (hd : d.Proper) (hr : r.faults = {}) (p : Project) (c : MemoryCache) :
    (∀ v ∈ r.visits p d (some memory) c, v.cached = true ↔ c.Holds v.path v.content) ∧
      (∀ path t, (path, t) ∈ (r.record p d c).produced →
        (r.report p d (some memory) c).cache.Holds path t) ∧
      ∀ path, path ∉ (r.record p d c).produced.map (·.1) →
        ((r.report p d (some memory) c).cache.get? path = none ∧
            ∃ ps, (r.record p d c).walked = some ps ∧ path ∉ ps) ∨
          (r.report p d (some memory) c).cache.get? path = c.get? path ∧
            ∀ ps, (r.record p d c).walked = some ps → path ∈ ps := by
  simp only [mem_produced_iff, mem_paths_produced_iff]
  simp only [record, visits, report]
  cases hfiles : d.sources p.settings.scope r.source with
  | error f =>
    refine ⟨List.forall_mem_nil _, ?_, fun path _ => .inr ⟨rfl, fun ps hps => ?_⟩⟩
    · rintro path t ⟨v, hv, -⟩
      cases hv
    · cases hps
  | ok files =>
    obtain ⟨hcached, hproduced, hothers⟩ :=
      Job.renewal_run (cache_job hr p) (hd.nodup_sources hfiles) (r.surroundings d) c
    refine ⟨hcached, ?_, fun path hpath => ?_⟩
    · rintro path t ⟨v, hv, hprod, rfl, rfl⟩
      exact hproduced v hv hprod
    · have hget := hothers path fun v hv hprod heq => hpath ⟨v, hv, hprod, heq⟩
      cases hfail : ((r.job p (some memory)).run (r.surroundings d) (.ok files) c).failure with
      | some f =>
        rw [hfail, if_neg fun h => absurd h.1 (Option.some_ne_none f)] at hget
        refine .inr ⟨hget, fun ps hps => ?_⟩
        cases hps
      | none =>
        rw [hfail] at hget
        by_cases hmem : path ∈ files.map (·.path)
        · rw [if_neg fun h => h.2 hmem] at hget
          refine .inr ⟨hget, fun ps hps => ?_⟩
          cases hps
          exact hmem
        · rw [if_pos ⟨rfl, hmem⟩] at hget
          exact .inl ⟨hget, _, rfl, hmem⟩

/-- The statistics count the blocks that were appended by where they came from. -/
theorem counts_of_report {stats : RunStats} {summaries : List Summary}
    (h : (r.report p d (some memory) c).result = some (stats, summaries)) :
    stats.cached =
        Int64.ofNat ((r.visits p d (some memory) c).countP fun v => v.appended && v.cached) ∧
      stats.converted =
        Int64.ofNat ((r.visits p d (some memory) c).countP fun v => v.appended && !v.cached) := by
  simp only [report, visits] at h ⊢
  cases hfiles : d.sources p.settings.scope r.source with
  | error f =>
    rw [hfiles] at h
    cases h
  | ok files =>
    rw [hfiles] at h
    obtain ⟨stats', summaries', hresult, hcounts⟩ :=
      (r.job p (some memory)).run_counts (r.surroundings d) files c
    cases h.symm.trans hresult
    exact hcounts

/-- A run without failure has visited all files that it found. -/
theorem visits_of_success (h : (r.report p d (some memory) c).failure = none) :
    ∃ files, d.sources p.settings.scope r.source = .ok files ∧
      (r.visits p d (some memory) c).map (·.path) = files.map (·.path) ∧
      ∀ v ∈ r.visits p d (some memory) c, v.appended = true := by
  simp only [report, visits] at h ⊢
  cases hfiles : d.sources p.settings.scope r.source with
  | error f =>
    rw [hfiles] at h
    cases h
  | ok files =>
    rw [hfiles] at h
    exact ⟨files, rfl, Job.runVisits_of_none h⟩

/-- A run that finds the files of a successful one again renders nothing and prunes nothing. -/
theorem report_of_repeats (hd : d.Proper) (hr : r.faults = {}) {r' : RunRequest} {d' : Disk}
    (hr' : r'.faults = {}) (hnone : (r.report p d (some memory) c).failure = none)
    (hrepeats : r.Repeats p d r' d') :
    let report := r.report p d (some memory) c
    let report' := r'.report p d' (some memory) report.cache
    (∃ stats summaries, report'.result = some (stats, summaries) ∧ stats.converted = 0 ∧
        stats.pruned = 0) ∧
      report'.output <+: report.output ∧
      (report'.failure = none → report'.output = report.output) ∧
      ((∀ i, r'.stop i = none) → (∀ i, r'.appendFault i = none) → report'.failure = none) := by
  obtain ⟨hsources, hread⟩ := hrepeats
  simp only [report, hsources] at hnone ⊢
  cases hfiles : d.sources p.settings.scope r.source with
  | error f =>
    rw [hfiles] at hnone
    cases hnone
  | ok files =>
    rw [hfiles] at hnone
    obtain ⟨s, hrun, hs⟩ | ⟨done, file, rest, s, f, -, hrun, -⟩ :=
      Job.run_memory (cache_job hr p) (hd.nodup_sources hfiles) (r.surroundings d) c
    · have hcurrent : s.cache.Current (r'.surroundings d') files :=
        hs.current.congr_read fun file hfile out => hread files hfiles file hfile out
      obtain ⟨now, s', failed, hpre, hrun', hs', hall, hend⟩ :=
        Job.run_settled (cache_job hr' p) hcurrent fun q hq => (hs.keys q).mp hq
      rw [hrun]
      simp only [Job.reportOf] at hrun' ⊢
      rw [hrun']
      refine ⟨⟨s'.stats, s'.files, rfl, hs'.converted, hs'.pruned⟩, ?_, fun hfail => ?_, hend⟩
      · obtain ⟨rest, rfl⟩ := hpre
        rw [hs'.output, hs.output]
        exact ⟨s.cache.blocks rest, by simp [MemoryCache.blocks]⟩
      · rw [hs'.output, hs.output, hall hfail]
    · rw [hrun] at hnone
      cases hnone

end RunRequest

namespace Site

open BlockCache RunRecord

/-- The cache has an entry where the log serves a content, and the entry was made of this content. -/
def Mirrored (log : List RunRecord) (c : MemoryCache) : Prop :=
  ∀ path hash, (∃ b, c.get? path = some b ∧ b.hash = hash) ↔
    ∃ t, Serves log path t ∧ contentHash t = hash

variable {log : List RunRecord} {r : RunRequest} {p : Project} {d : Disk} {c : MemoryCache}

theorem mirrored_nil : Mirrored [] [] := by
  intro path hash
  constructor
  · rintro ⟨b, hget, -⟩
    cases hget
  · rintro ⟨t, hserves, -⟩
    exact absurd hserves not_serves_nil

/-- **A run keeps the cache in step with the log.** -/
theorem Mirrored.run (h : Mirrored log c) (hd : d.Proper) (hr : r.faults = {}) :
    Mirrored (log ++ [r.record p d c]) (r.report p d (some memory) c).cache := by
  obtain ⟨-, hproduced, hothers⟩ := RunRequest.renewal_report hd hr p c
  intro path hash
  simp only [serves_concat]
  by_cases hpath : path ∈ (r.record p d c).produced.map (·.1)
  · obtain ⟨⟨q, t⟩, hmem, heq⟩ := List.mem_map.mp hpath
    obtain rfl : q = path := heq
    obtain ⟨b, hget, hhash⟩ := hproduced q t hmem
    constructor
    · rintro ⟨b', hget', rfl⟩
      cases hget.symm.trans hget'
      exact ⟨t, .inl hmem, hhash.symm⟩
    · rintro ⟨u, hmem' | ⟨-, hnot, -⟩, rfl⟩
      · exact hproduced q u hmem'
      · exact absurd hpath hnot
  · have hnot : ∀ t, (path, t) ∉ (r.record p d c).produced :=
      fun t hmem => hpath (List.mem_map_of_mem (f := (·.1)) hmem)
    obtain ⟨hget, ps, hwalked, hps⟩ | ⟨hget, hwalked⟩ := hothers path hpath
    · constructor
      · rintro ⟨b, hget', -⟩
        cases hget.symm.trans hget'
      · rintro ⟨t, hmem | ⟨-, -, hall⟩, -⟩
        · exact absurd hmem (hnot t)
        · exact absurd (hall ps hwalked) hps
    · rw [hget, h path hash]
      refine exists_congr fun t => and_congr_left fun _ => ?_
      exact ⟨fun hserves => .inr ⟨hserves, hpath, hwalked⟩,
        fun hor => (hor.resolve_left (hnot t)).1⟩

/-! ## Histories -/

/-- What is to be known of the runs of a history. -/
def records (p : Project) : Site → List Event → List RunRecord
  | _, [] => []
  | s, .change c :: events => records p (s.step p (.change c)) events
  | s, .run r :: events => r.record p s.disk s.cache :: records p (s.step p (.run r)) events

theorem proper_step {s : Site} (hs : s.disk.Proper) (p : Project) {e : Event}
    (he : ∀ r, e = .run r → r.Plain) : (s.step p e).disk.Proper := by
  cases e with
  | change c => exact hs.apply c
  | run r =>
    simp only [step, RunRequest.view]
    split
    · exact hs
    · next out hsink => exact hs.withLeaf ((he r rfl).isName out hsink) _

/-- **A history keeps the cache in step with the log.** -/
theorem Mirrored.after {s : Site} (h : Mirrored log s.cache) (hs : s.disk.Proper) (p : Project)
    {history : List Event} (hplain : ∀ r, .run r ∈ history → r.Plain) :
    Mirrored (log ++ records p s history) (s.after p history).cache ∧
      (s.after p history).disk.Proper := by
  induction history generalizing s log with
  | nil =>
    rw [records, List.append_nil]
    exact ⟨h, hs⟩
  | cons e history ih =>
    have hnext := proper_step hs p (e := e) fun r hr => hplain r (hr ▸ List.mem_cons_self)
    have hrest : ∀ r, Event.run r ∈ history → r.Plain :=
      fun r hr => hplain r (List.mem_cons_of_mem _ hr)
    cases e with
    | change c => exact ih (s := s.step p (.change c)) h hnext hrest
    | run r =>
      have hrun : Mirrored (log ++ [r.record p s.disk s.cache]) (s.step p (.run r)).cache :=
        h.run hs (hplain r List.mem_cons_self).faults
      have hafter := ih hrun hnext hrest
      rw [List.append_assoc] at hafter
      exact hafter

/-- What the log serves was read. -/
theorem mem_contents_of_mem_records {s : Site} {history : List Event} {record : RunRecord}
    (hrecord : record ∈ records p s history) {path t : Text} (ht : (path, t) ∈ record.produced) :
    t ∈ s.contents p history := by
  induction history generalizing s with
  | nil => cases hrecord
  | cons e history ih =>
    cases e with
    | change c => exact List.mem_append_right _ (ih hrecord)
    | run r =>
      obtain rfl | hrecord := List.mem_cons.mp hrecord
      · obtain ⟨v, hv, -, -, rfl⟩ := RunRequest.mem_produced_iff.mp ht
        exact List.mem_append_left _ (List.mem_map_of_mem hv)
      · exact List.mem_append_right _ (ih hrecord)

/-- What a run takes from the cache that is in step with a log. -/
theorem Mirrored.cached_iff (h : Mirrored log c) (hd : d.Proper) (hr : r.faults = {})
    {known : Set Text} (hinj : Set.InjOn contentHash known)
    (hlog : ∀ path t, Serves log path t → t ∈ known) {v : Visit}
    (hv : v ∈ r.visits p d (some memory) c) (hknown : v.content ∈ known) :
    v.cached = true ↔ Serves log v.path v.content := by
  have hholds := (RunRequest.renewal_report hd hr p c).1 v hv
  rw [hholds, MemoryCache.Holds, h]
  constructor
  · rintro ⟨t, hserves, hhash⟩
    rwa [← hinj (hlog _ t hserves) hknown hhash]
  · exact fun hserves => ⟨v.content, hserves, rfl⟩

/-- **Which blocks come from the cache.** After any history of changes and runs, however these ended,
a run takes the block of a file from the cache if and only if the log of the runs serves the content
that it reads. Its statistics count the blocks that it appended by where they came from, and a run
without failure has visited all files. A run after that which finds the same files renders nothing and
prunes nothing, and it gives the same output unless it is broken off. -/
theorem cached_iff_serves (p : Project) {d : Disk} (hd : d.Proper) (history : List Event)
    (hplain : ∀ r, .run r ∈ history → r.Plain) {r : RunRequest} (hr : r.faults = {})
    (hinj : Set.InjOn contentHash { t | t ∈ contents p { disk := d } (history ++ [.run r]) }) :
    let s := after p { disk := d } history
    let visits := r.visits p s.disk (some memory) s.cache
    let report := r.report p s.disk (some memory) s.cache
    (∀ v ∈ visits, v.cached = true ↔ Serves (records p { disk := d } history) v.path v.content) ∧
      (∀ stats summaries, report.result = some (stats, summaries) →
        stats.cached = Int64.ofNat (visits.countP fun v => v.appended && v.cached) ∧
          stats.converted = Int64.ofNat (visits.countP fun v => v.appended && !v.cached)) ∧
      (report.failure = none → ∃ files, s.disk.sources p.settings.scope r.source = .ok files ∧
        visits.map (·.path) = files.map (·.path) ∧ ∀ v ∈ visits, v.appended = true) ∧
      ∀ (r' : RunRequest) (d' : Disk), r'.faults = {} → report.failure = none →
        r.Repeats p s.disk r' d' →
        let report' := r'.report p d' (some memory) report.cache
        (∃ stats summaries, report'.result = some (stats, summaries) ∧ stats.converted = 0 ∧
            stats.pruned = 0) ∧
          report'.output <+: report.output ∧
          (report'.failure = none → report'.output = report.output) ∧
          ((∀ i, r'.stop i = none) → (∀ i, r'.appendFault i = none) → report'.failure = none) := by
  intro s visits report
  obtain ⟨hmirrored, hproper⟩ := Mirrored.after (s := { disk := d }) mirrored_nil hd p hplain
  rw [List.nil_append] at hmirrored
  have hread : ∀ t, t ∈ contents p { disk := d } history ∨ t ∈ s.reads p (.run r) →
      t ∈ { t | t ∈ contents p { disk := d } (history ++ [.run r]) } :=
    fun t => (History.mem_contents_concat _ history _).mpr
  refine ⟨fun v hv => ?_, fun stats summaries => RunRequest.counts_of_report,
    RunRequest.visits_of_success,
    fun r' d' hr' hnone => RunRequest.report_of_repeats hproper hr hr' hnone⟩
  refine hmirrored.cached_iff hproper hr hinj (fun path t hserves => ?_) hv
    (hread _ (.inr (List.mem_map_of_mem hv)))
  obtain ⟨before, last, rest, hlog, hmem, -⟩ := hserves
  have hlast : last ∈ records p { disk := d } history := hlog ▸ by simp
  exact hread t (.inl (mem_contents_of_mem_records hlast hmem))

/-- A class is converted, its file is moved away, a run is stopped, and the file is moved back. -/
def movedClass : List Event :=
  [.change (.write "/A.js" "function A"), .run { source := "/" }, .change (.rename "/A.js" "/B.js"),
    .run { source := "/", stop := fun _ => some Cause.canceled }, .change (.rename "/B.js" "/A.js")]

theorem cached_iff_serves_movedClass :
    let p : Project := { dir := "/" }
    let s := after p { disk := {} } movedClass
    let r : RunRequest := { source := "/" }
    let report := r.report p s.disk (some memory) s.cache
    (r.visits p s.disk (some memory) s.cache).map (·.cached) = [true] ∧ report.failure = none ∧
      (∀ v ∈ r.visits p s.disk (some memory) s.cache,
        v.cached = true ↔ Serves (records p { disk := {} } movedClass) v.path v.content) ∧
      ∃ stats summaries, (r.report p s.disk (some memory) report.cache).result = some (stats, summaries) ∧
        stats.converted = 0 ∧ stats.pruned = 0 := by
  intro p s r report
  have hcontents : contents p { disk := {} } (movedClass ++ [.run r]) =
      [Text.ofString "function A", Text.ofString "function A"] := by
    decide +kernel
  have hnext : (r.visits p s.disk (some memory) s.cache).map (·.cached) = [true] ∧
      report.failure = none := by
    decide +kernel
  have hplain : ∀ r, .run r ∈ movedClass → r.Plain := by
    intro r hr
    obtain rfl | rfl : r = { source := "/" } ∨
        r = { source := "/", stop := fun _ => some Cause.canceled } := by
      simpa [movedClass] using hr
    · exact ⟨rfl, nofun⟩
    · exact ⟨rfl, nofun⟩
  have hsame : ∀ t ∈ contents p { disk := {} } (movedClass ++ [.run r]), t = Text.ofString "function A" := by
    intro t ht
    rw [hcontents] at ht
    simpa using ht
  obtain ⟨hserves, -, -, hrepeat⟩ := cached_iff_serves p Disk.proper_empty movedClass hplain
    (r := r) rfl fun t ht u hu _ => (hsame t ht).trans (hsame u hu).symm
  have hagain := hrepeat r s.disk rfl hnext.2 ⟨rfl, fun _ _ _ _ _ => rfl⟩
  exact ⟨hnext.1, hnext.2, hserves, hagain.1⟩

end Site

end StubDecl
