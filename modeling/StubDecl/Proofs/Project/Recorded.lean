import StubDecl.Proofs.Cache.LastRun
import StubDecl.Proofs.Declaration
import StubDecl.Proofs.File.Stores

/-!
# What a conversion does to the record of the last run

A conversion readies its cache, which deletes the record if the cache is emptied, and records its statistics
if it has not failed. Whatever else happens to it, it leaves the record alone: that it fails, that its
declaration file cannot be opened, or that it has no cache (`Project.converted_of_keepsTo`). All of this is
said by its trace (`Project.lastRecordAt?_convert`).

The declaration file must not be the cache file (`Project.keepsTo`). Nothing keeps a conversion from writing
its declarations over the cache, not even that it is to leave the cache alone.
-/

namespace StubDecl

/-- The record of the last run in the cache at a place, if there is one. -/
def Disk.lastRecordAt? (d : Disk) (place : List Text) : Option Text :=
  (d.storeAt? place).bind BlockStore.lastRecord?

theorem Disk.lastRecordAt?_of_storeAt? {d : Disk} {place : List Text} {s : BlockStore}
    (h : d.storeAt? place = some s) :
    d.lastRecordAt? place = s.lastRecord? := by
  rw [lastRecordAt?, h, Option.bind_some]

theorem StoreFile.lastRecord?_of_openAt {d : Disk} {f : StoreFile} {path : Text} (h : openAt d path = .ok f) :
    f.store.lastRecord? = d.lastRecordAt? f.place := by
  obtain hstore | ⟨hnone, hempty⟩ := store_of_openAt h
  · exact (Disk.lastRecordAt?_of_storeAt? hstore).symm
  · rw [Disk.lastRecordAt?, hnone, hempty]
    rfl

/-! ## What conversions leave behind -/

/-- What a conversion has to do with the record of the last run: whether it emptied the cache, and the
statistics that it recorded. -/
structure Trace where
  rebuilt : Bool := false
  recorded : Option RunStats := none
  deriving DecidableEq, Repr

namespace Trace

/-- The last run after a conversion, given the last run before. -/
def after {α : Type} (write : RunStats → α) (t : Trace) (last : Option α) : Option α :=
  match t.recorded with
  | some r => some (write r)
  | none => if t.rebuilt then none else last

variable {α : Type} {write : RunStats → α} {last : Option α} {t : Trace}

theorem map_after (t : Trace) (last : Option RunStats) :
    (t.after id last).map write = t.after write (last.map write) := by
  rw [after, after]
  cases t.recorded with
  | some r => rfl
  | none =>
    rw [apply_ite (Option.map write), Option.map_none]

theorem after_of_recorded {r : RunStats} (h : t.recorded = some r) : t.after write last = some (write r) := by
  rw [after, h]

theorem after_of_unrecorded {reason : Text} (h : t.recorded = none) (hrebuilt : t.rebuilt = decide (reason ≠ [])) :
    t.after write last = if reason = [] then last else none := by
  rw [after, h]
  simp only [hrebuilt, decide_eq_true_eq, ne_eq, ite_not]

end Trace

namespace Project

/-- Whether a conversion works with the cache. -/
def usesCache (p : Project) (noCache : Bool) : Bool := p.settings.cache.enabled && !noCache

/-- The cache file of a conversion, if there is one, is at the place, and the declaration file is not. -/
def keepsTo (p : Project) (d : Disk) (noCache : Bool) (output : Text) (place : List Text) : Bool :=
  match p.cacheFor d noCache with
  | .error _ => true
  | .ok (d, file, _) =>
    file.all (fun f => f.place = place) &&
      match p.openOutput d output with
      | .error _ => true
      | .ok (_, out) => out.place ≠ place

/-- The disk after a conversion. -/
def diskAfter (r : Except (Disk × Text × Failure) Conversion) : Disk :=
  match r with
  | .error (d, _, _) => d
  | .ok c => c.disk

/-- The trace of a conversion. -/
def traceOf (cached : Bool) (r : Except (Disk × Text × Failure) Conversion) : Trace :=
  match r with
  | .error (_, reason, _) => { rebuilt := reason ≠ [] }
  | .ok c =>
    { rebuilt := c.rebuilt ≠ []
      recorded := if cached && c.report.failure.isNone then c.report.result.map (·.1) else none }

variable {p : Project} {d d' : Disk} {place : List Text} {output : Text} {f : StoreFile} {reason : Text}

/-- What opening the cache comes to: the store that was there has been readied, and is at its place. -/
structure Opened (d d' : Disk) (f : StoreFile) (reason : Text) : Prop where
  record : f.store.lastRecord? = if reason = [] then d.lastRecordAt? f.place else none
  written : d'.storeAt? f.place = some f.store

theorem opened_of_openCache (h : p.openCache d = .ok (d', f, reason)) : Opened d d' f reason := by
  obtain ⟨d₁, hmade, h⟩ := Outcome.bind_eq_ok h
  obtain ⟨f₁, hfile, h⟩ := Outcome.bind_eq_ok h
  cases h
  have hmade := Outcome.mapError_eq_ok hmade
  have hfile := Outcome.mapError_eq_ok hfile
  obtain ⟨habove, hno⟩ := Disk.dir_above_placeForWriting (StoreFile.openAt_eq_ok hfile).1
  refine ⟨?_, StoreFile.storeAt?_flush _ habove hno⟩
  have hsame : d₁.lastRecordAt? f₁.place = d.lastRecordAt? f₁.place := by
    rw [Disk.lastRecordAt?, Disk.storeAt?_makeDirsFrom hmade, Disk.lastRecordAt?]
  rw [← hsame, ← StoreFile.lastRecord?_of_openAt hfile]
  exact BlockStore.lastRecord?_prepareFor f₁.store p.settings.hash

/-- What opening the declaration file of a conversion comes to, as far as the cache goes. -/
theorem storeAt?_openOutput {out : OutputFile} (h : p.openOutput d output = .ok (d', out)) :
    (∀ q ≠ out.place, d'.storeAt? q = d.storeAt? q) ∧ ∃ l, d'.root.node? out.place = some (.leaf l) := by
  rw [openOutput] at h
  exact Disk.storeAt?_create (Outcome.mapError_eq_ok h)

/-- A run that has not failed has statistics. -/
theorem exists_stats {κ : Type} {j : Job κ} {w : Surroundings} {found : Outcome (List SourceFile)} {c : κ}
    (h : (j.run w found c).failure = none) : ∃ stats files, (j.run w found c).result = some (stats, files) := by
  cases found with
  | error e => cases h
  | ok sources => exact ⟨_, _, rfl⟩

variable {out : OutputFile} {source : Text} {canceled : Bool}

/-- A conversion without a cache leaves all stores alone that it does not write its declarations over. -/
theorem storeAt?_convertWith_none {l : Leaf} (hout : d.root.node? out.place = some (.leaf l))
    (hplace : out.place ≠ place) :
    (p.convertWith d canceled source out none reason).disk.storeAt? place = d.storeAt? place :=
  Disk.storeAt?_flush (out.append _) hout hplace.symm

/-- What a conversion with a cache does to the record of the last run, and what it is compared with. -/
structure Recorded (f : StoreFile) (reason : Text) (c : Conversion) : Prop where
  rebuilt : c.rebuilt = reason
  failed : c.report.failure ≠ none → c.disk.lastRecordAt? f.place = f.store.lastRecord?
  success : c.report.failure = none → ∃ stats files, c.report.result = some (stats, files) ∧
    c.disk.lastRecordAt? f.place = some stats.toRecord
  previous : c.report.failure = none → ∃ s, s.lastRecord? = f.store.lastRecord? ∧ c.previous = lastRun? s

theorem recorded_of_convertWith {l : Leaf} (hout : d.root.node? out.place = some (.leaf l))
    (hplace : out.place ≠ f.place) (hstore : d.storeAt? f.place = some f.store) :
    Recorded f reason (p.convertWith d canceled source out (some f) reason) := by
  simp only [convertWith, convertTo]
  generalize hr : (p.job (some BlockCache.store)).run
    (surroundings (fun written => (out.append written).flush d) canceled)
    (d.sources p.settings.scope source) f.store = r
  have hkept : r.cache.lastRecord? = f.store.lastRecord? := by
    have hcache : (p.job (some BlockCache.store)).cache =
        some (BlockCache.store.faulty {} (Failure.ofMessage [])) := rfl
    rw [← hr, BlockStore.lastRecord?, BlockStore.lastRecord?, Job.stats_run hcache]
  -- the store is written to its file once more, whatever it has come to
  have hwritten : ∀ s : BlockStore,
      (({ f with store := s } : StoreFile).flush ((out.append r.output).flush d)).lastRecordAt? f.place =
        s.lastRecord? := by
    intro s
    have hstill : ((out.append r.output).flush d).storeAt? f.place = some f.store :=
      (Disk.storeAt?_flush (out.append r.output) hout hplace.symm).trans hstore
    obtain ⟨l, hl⟩ := Disk.exists_leaf_of_storeAt? hstill
    obtain ⟨habove, hno⟩ := Disk.dir_above_leaf hl
    exact Disk.lastRecordAt?_of_storeAt? (StoreFile.storeAt?_flush { f with store := s } habove hno)
  cases hfailure : r.failure with
  | some e =>
    exact {
      rebuilt := rfl
      failed := fun _ => (hwritten r.cache).trans hkept
      success := fun h => absurd (hfailure.symm.trans h) (Option.some_ne_none e)
      previous := fun h => absurd (hfailure.symm.trans h) (Option.some_ne_none e) }
  | none =>
    obtain ⟨stats, files, hresult⟩ : ∃ stats files, r.result = some (stats, files) := by
      subst hr
      exact exists_stats hfailure
    simp only [hresult]
    exact {
      rebuilt := rfl
      failed := fun h => absurd hfailure h
      success := fun _ => ⟨stats, files, hresult,
        (hwritten (r.cache.setLastRun stats)).trans (BlockStore.lastRecord?_setLastRun _ _)⟩
      previous := fun _ => ⟨r.cache, hkept, rfl⟩ }

theorem cacheFor_eq_ok {noCache : Bool} {file : Option StoreFile}
    (h : p.cacheFor d noCache = .ok (d', file, reason)) :
    p.usesCache noCache = false ∧ d' = d ∧ file = none ∧ reason = [] ∨
      p.usesCache noCache = true ∧ ∃ f, file = some f ∧ p.openCache d = .ok (d', f, reason) := by
  rw [cacheFor] at h
  cases hcache : p.usesCache noCache with
  | false =>
    rw [usesCache] at hcache
    rw [if_neg (by simp [hcache])] at h
    cases h
    exact .inl ⟨rfl, rfl, rfl, rfl⟩
  | true =>
    rw [usesCache] at hcache
    rw [if_pos hcache] at h
    obtain ⟨⟨d₁, f, r⟩, hopen, heq⟩ := Outcome.map_eq_ok h
    cases heq
    exact .inr ⟨rfl, f, rfl, hopen⟩

/-- The ways in which a conversion ends that keeps to the cache file at a place. -/
inductive Converted (p : Project) (d : Disk) (noCache : Bool) (place : List Text) :
    Except (Disk × Text × Failure) Conversion → Prop
  /-- Nothing has been done to the cache. -/
  | refused (e : Failure) : Converted p d noCache place (.error (d, [], e))
  /-- The cache has been readied, but the declaration file could not be opened. -/
  | unopened {d' : Disk} {f : StoreFile} {reason : Text} (e : Failure) (hplace : f.place = place)
      (hopen : Opened d d' f reason) : Converted p d noCache place (.error (d', reason, e))
  /-- There is no cache. -/
  | uncached {c : Conversion} (hcache : p.usesCache noCache = false)
      (hkept : c.disk.storeAt? place = d.storeAt? place) (hrebuilt : c.rebuilt = []) :
      Converted p d noCache place (.ok c)
  /-- There is a cache. -/
  | cached {d' : Disk} {f : StoreFile} {reason : Text} {c : Conversion}
      (hcache : p.usesCache noCache = true) (hplace : f.place = place) (hopen : Opened d d' f reason)
      (hrecord : Recorded f reason c) : Converted p d noCache place (.ok c)

theorem converted_of_keepsTo {noCache : Bool} (hk : p.keepsTo d noCache output place = true) :
    Converted p d noCache place (p.convert d canceled noCache source output) := by
  rw [keepsTo] at hk
  rw [convert]
  cases hcache : p.cacheFor d noCache with
  | error e => exact .refused e
  | ok r =>
    obtain ⟨d₁, file, reason⟩ := r
    rw [hcache] at hk
    obtain ⟨hfile, hout⟩ := Bool.and_eq_true_iff.mp hk
    dsimp only
    cases hopened : p.openOutput d₁ output with
    | error e =>
      obtain ⟨-, rfl, rfl, rfl⟩ | ⟨-, f, rfl, hopen⟩ := cacheFor_eq_ok hcache
      · exact .refused e
      · exact .unopened e (by simpa using hfile) (opened_of_openCache hopen)
    | ok r =>
      obtain ⟨d₂, out⟩ := r
      rw [hopened] at hout
      have hne : out.place ≠ place := by simpa using hout
      obtain ⟨hkept, l, hl⟩ := storeAt?_openOutput hopened
      obtain ⟨hno, rfl, rfl, rfl⟩ | ⟨hyes, f, rfl, hopen⟩ := cacheFor_eq_ok hcache
      · refine .uncached hno ?_ rfl
        rw [storeAt?_convertWith_none hl hne, hkept _ hne.symm]
      · obtain rfl : f.place = place := by simpa using hfile
        have hopen := opened_of_openCache hopen
        exact .cached hyes rfl hopen
          (recorded_of_convertWith hl hne ((hkept _ hne.symm).trans hopen.written))

/-- What a conversion does to the record of the last run is what its trace says. -/
theorem lastRecordAt?_convert {noCache : Bool} (hk : p.keepsTo d noCache output place = true) :
    let r := p.convert d canceled noCache source output
    (diskAfter r).lastRecordAt? place =
      (traceOf (p.usesCache noCache) r).after RunStats.toRecord (d.lastRecordAt? place) := by
  intro r
  have hr : Converted p d noCache place r := converted_of_keepsTo hk
  clear_value r
  cases hr with
  | refused e => rfl
  | @unopened d' f reason e hplace hopen =>
    have hnone : (traceOf (p.usesCache noCache) (.error (d', reason, e))).recorded = none := rfl
    rw [Trace.after_of_unrecorded hnone rfl, diskAfter, ← hplace,
      Disk.lastRecordAt?_of_storeAt? hopen.written, hopen.record]
  | @uncached c hcache hkept hrebuilt =>
    have hnone : (traceOf (p.usesCache noCache) (.ok c)).recorded = none := by
      simp [traceOf, hcache]
    rw [Trace.after_of_unrecorded hnone rfl, if_pos hrebuilt]
    rw [Disk.lastRecordAt?, Disk.lastRecordAt?, diskAfter, hkept]
  | @cached d' f reason c hcache hplace hopen hrecord =>
    subst hplace
    cases hfailure : c.report.failure with
    | some e =>
      have hnone : (traceOf (p.usesCache noCache) (.ok c)).recorded = none := by
        simp [traceOf, hfailure]
      rw [Trace.after_of_unrecorded hnone rfl, diskAfter,
        hrecord.failed (by rw [hfailure]; nofun), hopen.record, hrecord.rebuilt]
    | none =>
      obtain ⟨stats, files, hresult, hwritten⟩ := hrecord.success hfailure
      have hsome : (traceOf (p.usesCache noCache) (.ok c)).recorded = some stats := by
        simp [traceOf, hcache, hfailure, hresult]
      rw [Trace.after_of_recorded hsome, diskAfter, hwritten]

/-- A conversion with a cache that does not fail has statistics, and it is compared with the last run of the
cache that it has readied. -/
theorem previous_of_convert {noCache : Bool} {c : Conversion}
    (hk : p.keepsTo d noCache output place = true)
    (h : p.convert d canceled noCache source output = .ok c) (hcache : p.usesCache noCache = true)
    (hok : c.report.failure = none) {last : Option RunStats}
    (hlast : d.lastRecordAt? place = last.map RunStats.toRecord) :
    (∃ stats files, c.report.result = some (stats, files)) ∧
      c.previous = some ((if c.rebuilt = [] then last else none).getD {}) := by
  have hr : Converted p d noCache place (.ok c) := h ▸ converted_of_keepsTo hk
  cases hr with
  | uncached hno =>
    rw [hno] at hcache
    cases hcache
  | @cached d' f reason c _ hplace hopen hrecord =>
    obtain ⟨stats, files, hresult, -⟩ := hrecord.success hok
    obtain ⟨s, hs, hprevious⟩ := hrecord.previous hok
    refine ⟨⟨stats, files, hresult⟩, ?_⟩
    rw [hprevious]
    refine BlockStore.lastRun?_of_lastRecord? ?_
    rw [hs, hopen.record, hrecord.rebuilt, hplace, hlast]
    split
    · rfl
    · rfl

end Project

end StubDecl
