import StubDecl.Command.Answer
import StubDecl.Proofs.Project.Recorded

/-!
# The run before

A conversion with a cache is compared with the last one that was recorded. Over any calls of the program
that keep to one cache file, and with any changes of the disk in between that leave this file alone, the
record is that of the last successful conversion with the cache, unless the cache has been emptied since
(`CallHistory.lastRecordAt?_eq`, `CallHistory.compared_with_last`).
-/

namespace StubDecl

/-- The last run that a cache still knows after calls, the newest of which comes first. -/
def lastRecorded (log : List Trace) : Option RunStats := log.foldr (Trace.after id) none

theorem lastRecorded_cons (t : Trace) (log : List Trace) :
    lastRecorded (t :: log) = t.after id (lastRecorded log) := rfl

/-- A run has been recorded in calls, no run was recorded after it, and the cache has not been emptied since.
The newest call comes first. -/
def Recalls (log : List Trace) (stats : RunStats) : Prop :=
  ∃ later run earlier, log = later ++ run :: earlier ∧ run.recorded = some stats ∧
    ∀ t ∈ later, t.recorded = none ∧ t.rebuilt = false

theorem recalls_iff {log : List Trace} {stats : RunStats} :
    Recalls log stats ↔ lastRecorded log = some stats := by
  induction log with
  | nil =>
    refine iff_of_false ?_ (Option.some_ne_none stats).symm
    rintro ⟨later, run, earlier, hlog, -⟩
    exact List.append_ne_nil_of_right_ne_nil later (List.cons_ne_nil run earlier) hlog.symm
  | cons t log ih =>
    rw [lastRecorded_cons, Trace.after]
    constructor
    · rintro ⟨_ | ⟨t', later⟩, run, earlier, hlog, hrun, hlater⟩
      · cases hlog
        simp only [hrun, id_eq]
      · cases hlog
        obtain ⟨⟨hnone, hkept⟩, hlater⟩ := List.forall_mem_cons.mp hlater
        simp only [hnone, hkept, Bool.false_eq_true, if_false]
        exact ih.mp ⟨later, run, earlier, rfl, hrun, hlater⟩
    · intro h
      split at h
      · next r hr => exact ⟨[], t, log, rfl, hr.trans h, List.forall_mem_nil _⟩
      · next hnone =>
        split at h
        · cases h
        · next hkept =>
          obtain ⟨later, run, earlier, rfl, hrun, hlater⟩ := ih.mpr h
          exact ⟨t :: later, run, earlier, rfl, hrun,
            List.forall_mem_cons.mpr ⟨⟨hnone, Bool.eq_false_iff.mpr hkept⟩, hlater⟩⟩

/-! ## Calls -/

/-- A call of the program that asks for a conversion. -/
structure Call where
  args : List Text
  occasion : Occasion := {}
  options : Options
  path : Option Text
  parsed : Request.parse args = .ok (.run .convert options path)

namespace Call

open Project

/-- What the call answers. -/
def answer (k : Call) (d : Disk) : Answer := Answer.ofArguments d k.occasion k.args

/-- The project and the directory that are converted, if there are any. -/
def start? (k : Call) (d : Disk) : Option (Project × Text) :=
  match Project.load d k.options with
  | .error _ => none
  | .ok p =>
    match p.sourceDir d k.path with
    | .error _ => none
    | .ok source => some (p, source)

/-- The conversion that the call comes to. -/
def run (k : Call) (d : Disk) (p : Project) (source : Text) : Except (Disk × Text × Failure) Conversion :=
  p.convert d k.occasion.canceled k.options.noCache source (p.outputPath d k.options.output)

/-- What the call has to do with the record of the last run. -/
def trace (k : Call) (d : Disk) : Trace :=
  match k.start? d with
  | none => {}
  | some (p, source) => traceOf (p.usesCache k.options.noCache) (k.run d p source)

/-- If the call opens a cache file, it is the one at the place, and its declaration file is another one. -/
def keepsTo (k : Call) (d : Disk) (place : List Text) : Bool :=
  match k.start? d with
  | none => true
  | some (p, _) => p.keepsTo d k.options.noCache (p.outputPath d k.options.output) place

/-- The call comes to a conversion with the cache that does not fail. -/
structure Succeeds (k : Call) (d : Disk) (p : Project) (source : Text) (c : Conversion) : Prop where
  start : k.start? d = some (p, source)
  cached : p.usesCache k.options.noCache = true
  run : k.run d p source = .ok c
  success : c.report.failure = none

variable {k : Call} {d : Disk} {p : Project} {source : Text} {c : Conversion} {place : List Text}

theorem answer_of_start? (h : k.start? d = some (p, source)) :
    k.answer d = match k.run d p source with
      | .error (d', reason, f) => Answer.failed d' f (Answer.rebuiltText reason) []
      | .ok c => Answer.ofConversion c source (p.outputPath d k.options.output) := by
  rw [answer, Answer.ofArguments, k.parsed]
  rw [start?] at h
  split at h
  · cases h
  · next p' hload =>
    split at h
    · cases h
    · next source' hsource =>
      cases h
      simp only [hload, Answer.toCommand, Answer.toConvert, hsource]
      rfl

theorem answer_of_start?_none (h : k.start? d = none) : ∃ f, k.answer d = Answer.failed d f [] [] := by
  rw [answer, Answer.ofArguments, k.parsed]
  rw [start?] at h
  split at h
  · next f hload => exact ⟨f, by simp only [hload]⟩
  · next p hload =>
    split at h
    · next f hsource => exact ⟨f, by simp only [hload, Answer.toCommand, Answer.toConvert, hsource]⟩
    · cases h

theorem disk_ofConversion (c : Conversion) (source output : Text) :
    (Answer.ofConversion c source output).disk = c.disk := by
  rw [Answer.ofConversion]
  split <;> rfl

/-- What a call does to the record of the last run is what its trace says. -/
theorem lastRecordAt?_answer (hk : k.keepsTo d place = true) :
    (k.answer d).disk.lastRecordAt? place =
      (k.trace d).after RunStats.toRecord (d.lastRecordAt? place) := by
  rw [keepsTo] at hk
  rw [trace]
  cases hstart : k.start? d with
  | none =>
    obtain ⟨f, hanswer⟩ := answer_of_start?_none hstart
    rw [hanswer]
    rfl
  | some start =>
    obtain ⟨p, source⟩ := start
    rw [hstart] at hk
    have hdisk : (k.answer d).disk = diskAfter (k.run d p source) := by
      rw [answer_of_start? hstart]
      cases k.run d p source with
      | error r => rfl
      | ok c => exact disk_ofConversion c _ _
    rw [hdisk]
    exact lastRecordAt?_convert hk

/-- The runs that are recorded are the successful ones with the cache. -/
theorem recorded_iff {stats : RunStats} : (k.trace d).recorded = some stats ↔
    ∃ p source c files, k.Succeeds d p source c ∧ c.report.result = some (stats, files) := by
  constructor
  · intro h
    rw [trace] at h
    cases hstart : k.start? d with
    | none =>
      rw [hstart] at h
      cases h
    | some start =>
      obtain ⟨p, source⟩ := start
      rw [hstart] at h
      dsimp only at h
      cases hrun : k.run d p source with
      | error r =>
        rw [hrun] at h
        cases h
      | ok c =>
        simp only [hrun, traceOf] at h
        split at h
        · next hsuccess =>
          obtain ⟨hcached, hok⟩ := Bool.and_eq_true_iff.mp hsuccess
          obtain ⟨⟨_, files⟩, hresult, rfl⟩ := Option.map_eq_some_iff.mp h
          exact ⟨p, source, c, files, ⟨hstart, hcached, hrun, Option.isNone_iff_eq_none.mp hok⟩, hresult⟩
        · cases h
  · rintro ⟨p, source, c, files, hk, hresult⟩
    simp only [trace, hk.start, hk.run, traceOf, hk.cached, hk.success, hresult, Option.isNone_none,
      Bool.and_self, if_true, Option.map_some]

/-- A successful conversion with the cache does not fail as a call. -/
theorem Succeeds.answer (hk : k.Succeeds d p source c) :
    k.answer d = Answer.ofConversion c source (p.outputPath d k.options.output) := by
  rw [answer_of_start? hk.start, hk.run]

theorem Succeeds.failure_eq (hk : k.Succeeds d p source c) : (k.answer d).failure = none := by
  rw [hk.answer, Answer.ofConversion, hk.success]

/-- A call that fails or has no cache records nothing. -/
theorem recorded_eq_none (h : (k.answer d).failure ≠ none ∨
    ∀ p source, k.start? d = some (p, source) → p.usesCache k.options.noCache = false) :
    (k.trace d).recorded = none := by
  rw [Option.eq_none_iff_forall_ne_some]
  intro stats hrecorded
  obtain ⟨p, source, c, files, hk, -⟩ := recorded_iff.mp hrecorded
  obtain hfailed | hno := h
  · exact hfailed hk.failure_eq
  · exact Bool.false_ne_true ((hno p source hk.start).symm.trans hk.cached)

end Call

/-! ## Calls one after the other -/

/-- The disk after calls that keep to the cache file at a place, in a project that had no run on record, and
the traces of the calls, the newest first. -/
inductive CallHistory (place : List Text) : Disk → List Trace → Prop
  /-- No run is on record. -/
  | new {d : Disk} (hnone : d.lastRecordAt? place = none) : CallHistory place d []
  /-- Anything on the disk changes but the cache. -/
  | edit {d d' : Disk} {log : List Trace} (h : CallHistory place d log)
      (hkept : d'.storeAt? place = d.storeAt? place) : CallHistory place d' log
  /-- A call is made. -/
  | call {d : Disk} {log : List Trace} (h : CallHistory place d log) (k : Call)
      (hk : k.keepsTo d place = true) : CallHistory place (k.answer d).disk (k.trace d :: log)
  /-- A call is broken off while it readies the cache, after some of its commits. -/
  | brokenReadying {d d' : Disk} {log : List Trace} {f : StoreFile} {path : Text}
      (h : CallHistory place d log) (settings : Settings) (hopen : StoreFile.openAt d path = .ok f)
      (hplace : f.place = place) (committed : Nat)
      (hleft : d'.storeAt? place =
        some (((f.store.commits settings.hash).take committed).getLastD f.store)) :
      CallHistory place d' ({ rebuilt := (f.store.check settings).rebuild && 0 < committed } :: log)
  /-- A call is broken off after it has readied the cache, by whatever goes wrong with its run or at its
  end. -/
  | brokenRun {d d' : Disk} {log : List Trace} {p : Project} {f : StoreFile} {reason : Text}
      (h : CallHistory place d log) (hopen : p.openCache d = .ok (d', f, reason)) (hplace : f.place = place)
      (r : RunRequest) (seen d'' : Disk)
      (hleft : d''.storeAt? place = some (r.report p seen (some BlockCache.store) f.store).cache) :
      CallHistory place d'' ({ rebuilt := reason ≠ [] } :: log)

namespace CallHistory

variable {place : List Text} {d : Disk} {log : List Trace}

/-- **The record in the cache** is that of the last run that the calls have left there. -/
theorem lastRecordAt?_eq (h : CallHistory place d log) :
    d.lastRecordAt? place = (lastRecorded log).map RunStats.toRecord := by
  induction h with
  | new hnone => exact hnone
  | edit _ hkept ih => rw [← ih, Disk.lastRecordAt?, Disk.lastRecordAt?, hkept]
  | @call d log _ k hk ih =>
    rw [Call.lastRecordAt?_answer hk, ih, lastRecorded_cons, Trace.map_after]
  | @brokenReadying d d' log f path _ settings hopen hplace committed hleft ih =>
    rw [Disk.lastRecordAt?_of_storeAt? hleft, BlockStore.lastRecord?_commits,
      StoreFile.lastRecord?_of_openAt hopen, hplace, ih, lastRecorded_cons, Trace.map_after]
    rfl
  | @brokenRun d d' log p f reason _ hopen hplace r seen d'' hleft ih =>
    have hcache : (r.job p (some BlockCache.store)).cache =
        some (BlockCache.store.faulty r.faults r.cacheFailure) := rfl
    have hkept : (r.report p seen (some BlockCache.store) f.store).cache.lastRecord? =
        f.store.lastRecord? := by
      rw [BlockStore.lastRecord?, RunRequest.report, Job.stats_run hcache, BlockStore.lastRecord?]
    rw [Disk.lastRecordAt?_of_storeAt? hleft, hkept, (Project.opened_of_openCache hopen).record, hplace,
      ih, lastRecorded_cons, Trace.map_after]
    exact (Trace.after_of_unrecorded rfl rfl).symm

/-- **What a run is compared with.** After any calls that keep to one cache file, let another one be made.

If it converts with the cache and does not fail, it is compared with the last run that succeeded with the
cache before, provided that the cache was emptied neither since then nor by this call itself. If it was, or if
there was no such run, it is compared with no files at all, and the comparison is not printed.

If it fails, or has no cache, the record of the last run stays as it is, unless the call has emptied the
cache, which deletes it. -/
theorem compared_with_last (h : CallHistory place d log) {k : Call} (hk : k.keepsTo d place = true) :
    (∀ p source c, k.Succeeds d p source c →
      (∀ stats, c.rebuilt = [] → Recalls log stats → c.previous = some stats) ∧
      (c.rebuilt ≠ [] ∨ (∀ stats, ¬Recalls log stats) → c.previous = some {} ∧
        ∃ stats files, c.report.result = some (stats, files) ∧
          (k.answer d).out = Answer.rebuiltText c.rebuilt ++ "Converting " ++ source ++ "...\n" ++
            "\nConversion complete:\n" ++ stats.text ++ "\nDeclarations written to: " ++
            p.outputPath d k.options.output ++ "\n")) ∧
    ((k.answer d).failure ≠ none ∨
        (∀ p source, k.start? d = some (p, source) → p.usesCache k.options.noCache = false) →
      (k.answer d).disk.lastRecordAt? place =
        if (k.trace d).rebuilt then none else d.lastRecordAt? place) := by
  refine ⟨fun p source c hc => ?_, fun hnothing => ?_⟩
  · obtain ⟨⟨stats, files, hresult⟩, hprevious⟩ : (∃ stats files, c.report.result = some (stats, files)) ∧
        c.previous = some ((if c.rebuilt = [] then lastRecorded log else none).getD {}) := by
      rw [Call.keepsTo, hc.start] at hk
      exact Project.previous_of_convert hk hc.run hc.cached hc.success h.lastRecordAt?_eq
    refine ⟨fun stats hrebuilt hrecalls => ?_, fun hnone => ?_⟩
    · rw [hprevious, if_pos hrebuilt, recalls_iff.mp hrecalls, Option.getD_some]
    · have hlast : (if c.rebuilt = [] then lastRecorded log else none) = none := by
        split
        · next hrebuilt =>
          rw [Option.eq_none_iff_forall_ne_some]
          exact fun stats hstats => (hnone.resolve_left (not_not.mpr hrebuilt)) stats (recalls_iff.mpr hstats)
        · rfl
      rw [hlast] at hprevious
      refine ⟨hprevious, stats, files, hresult, ?_⟩
      rw [hc.answer, Answer.ofConversion, hc.success, hprevious]
      simp only [hresult, Option.getD_some, Option.getD_none, RunStats.delta_empty, List.append_nil,
        List.append_assoc]
  · rw [Call.lastRecordAt?_answer hk, Trace.after, Call.recorded_eq_none hnothing]

/-- A project with one stub file and no cache yet. -/
def newProject : Disk where
  root := .dir "proj" (.leaf "A.js" (.file "function A() \x7b\x7d\n") .nil) .nil
  directory := "/proj"

/-- A conversion with the default settings. -/
def plainCall : Call where
  args := ["convert", "--no-progress"]
  options := { noProgress := true }
  path := none
  parsed := by decide +kernel

/-- The place of the cache in the project. -/
def cachePlace : List Text := ["proj", ".stubconv", "cache.db"]

/-- What the call converts: the project with the default settings. -/
def plainProject : Project where
  dir := "/proj"

theorem compared_with_last_plainCall :
    let second := (plainCall.answer newProject).disk
    CallHistory cachePlace second [plainCall.trace newProject] ∧
      ∃ p source c, plainCall.Succeeds second p source c ∧
        c.previous = some { converted := 1, classCount := 1, bytes := 21 } := by
  intro second
  have hfirst : plainCall.keepsTo newProject cachePlace = true := by decide +kernel
  have hsecond : plainCall.keepsTo second cachePlace = true := by decide +kernel
  have hlog : CallHistory cachePlace second [plainCall.trace newProject] :=
    .call (.new (by decide +kernel)) plainCall hfirst
  have hrecalls : Recalls [plainCall.trace newProject] { converted := 1, classCount := 1, bytes := 21 } :=
    recalls_iff.mpr (by decide +kernel)
  have hstart : plainCall.start? second = some (plainProject, ("/proj" : Text)) := by decide +kernel
  have hsuccess : ((plainCall.run second plainProject "/proj").toOption.map
      fun c : Conversion => (c.report.failure, c.rebuilt)) = some (none, []) := by decide +kernel
  cases hrun : plainCall.run second plainProject "/proj" with
  | error e =>
    rw [hrun] at hsuccess
    cases hsuccess
  | ok c =>
    rw [hrun] at hsuccess
    obtain ⟨hok, hrebuilt⟩ := Prod.mk.inj (Option.some.inj hsuccess)
    have hc : plainCall.Succeeds second plainProject "/proj" c := ⟨hstart, rfl, hrun, hok⟩
    exact ⟨hlog, _, _, c, hc,
      ((compared_with_last hlog hsecond).1 _ _ c hc).1 _ hrebuilt hrecalls⟩

/-- A conversion that is to leave the cache alone, with the cache file for its declarations. -/
def overwritingCall : Call where
  args := ["convert", "none", "--no-cache", "--no-progress", "-o", ".stubconv/cache.db"]
  options := { noCache := true, noProgress := true, output := ".stubconv/cache.db" }
  path := some "none"
  parsed := by decide +kernel

-- it does not keep to the cache file, and deletes the record without emptying the cache for a reason
example :
    let d := (plainCall.answer newProject).disk.apply (.makeDir "none")
    overwritingCall.keepsTo d cachePlace = false ∧ (d.lastRecordAt? cachePlace).isSome ∧
      (overwritingCall.answer d).failure = none ∧ (overwritingCall.trace d).rebuilt = false ∧
      (overwritingCall.answer d).disk.lastRecordAt? cachePlace = none := by
  decide +kernel

end CallHistory

end StubDecl
