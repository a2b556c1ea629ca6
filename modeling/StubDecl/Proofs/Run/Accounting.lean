import Mathlib.Data.List.Basic
import StubDecl.Proofs.Run.Visit

/-!
# The books of a run

A run delivers files one after the other until something breaks it off. `Job.Delivers` says what was
delivered, from what was read and what the cache held at the time; `Tallies` says that output,
progress, summaries and statistics are those of the deliveries. Every delivery keeps the books in
balance (`Tallies.deliver`), so they balance wherever a run ends (`Job.convertFrom_balance`). What
breaks a run off at a file is one of four things (`Job.Breaks`), and the files behind that one have no
influence on it (`Job.convertFrom_congr`). `Job.run_balance` puts this together for a whole run.
-/

namespace StubDecl

/-- What came of a file: its block, what the block declares, and whether it was in the cache. -/
structure Delivery where
  block : Text
  summary : Summary
  cached : Bool
  deriving DecidableEq, Repr

/-- The output, the progress, the summaries and the statistics of a run are those of the deliveries
`ds`, which are made for the files `done` out of `total`. Numbers are numbers of 64 bits. -/
structure Tallies (total : Nat) (done : List SourceFile) (ds : List Delivery) (out : Text)
    (calls : List Progress) (summaries : List Summary) (stats : RunStats) : Prop where
  output : out = ds.flatMap (·.block)
  progress : calls = done.mapIdx fun i file => ⟨i + 1, total, file.relPath⟩
  summaries : summaries = ds.map (·.summary)
  named : ds.map (fun d => (d.summary.path, d.summary.relPath)) =
    done.map fun file => (file.path, file.relPath)
  handled : stats.converted + stats.cached = Int64.ofNat ds.length
  classCount : stats.classCount = Int64.ofNat ds.length
  methodCount : stats.methodCount = (ds.map (·.summary.methodCount)).sum
  variableCount : stats.variableCount = (ds.map (·.summary.variableCount)).sum
  bytes : stats.bytes = Int64.ofNat out.length

namespace Tallies

theorem nil (total : Nat) : Tallies total [] [] [] [] [] {} where
  output := rfl
  progress := rfl
  summaries := rfl
  named := rfl
  handled := rfl
  classCount := rfl
  methodCount := rfl
  variableCount := rfl
  bytes := rfl

variable {total : Nat} {done : List SourceFile} {ds : List Delivery} {out : Text}
  {calls : List Progress} {summaries : List Summary} {stats : RunStats}

theorem length_eq (h : Tallies total done ds out calls summaries stats) :
    ds.length = done.length := by
  have := congrArg List.length h.named
  simpa using this

/-- A delivery is entered once in each of the books. -/
theorem deliver (h : Tallies total done ds out calls summaries stats) {file : SourceFile}
    {d : Delivery} (hpath : d.summary.path = file.path) (hrel : d.summary.relPath = file.relPath) :
    Tallies total (done ++ [file]) (ds ++ [d]) (out ++ d.block)
      (calls ++ [⟨done.length + 1, total, file.relPath⟩]) (summaries ++ [d.summary])
      (Job.count stats d.block d.summary d.cached) where
  output := by simp [h.output]
  progress := by simp [h.progress, List.mapIdx_append]
  summaries := by simp [h.summaries]
  named := by simp [h.named, hpath, hrel]
  handled := by
    have hone : (Job.count stats d.block d.summary d.cached).converted +
        (Job.count stats d.block d.summary d.cached).cached = stats.converted + stats.cached + 1 := by
      cases hc : d.cached <;> simp only [Job.count] <;> grind
    rw [hone, h.handled, List.length_append, Int64.ofNat_add]
    rfl
  classCount := by
    rw [List.length_append, Int64.ofNat_add, ← h.classCount]
    rfl
  methodCount := by simp [Job.count, h.methodCount]
  variableCount := by simp [Job.count, h.variableCount]
  bytes := by
    rw [List.length_append, Int64.ofNat_add, ← h.bytes]
    rfl

end Tallies

namespace Job

open BlockCache

variable {κ : Type}

/-- `j.Delivers w c files ds c'`: each of the files is read when the blocks of those before it have
been written, its block is produced with the cache that they have left, and `c'` is left in the end. -/
inductive Delivers (j : Job κ) (w : Surroundings) (c : κ) :
    List SourceFile → List Delivery → κ → Prop
  | nil : Delivers j w c [] [] c
  | concat {files : List SourceFile} {ds : List Delivery} {c₁ c₂ : κ} {file : SourceFile}
      {content : Text} {d : Delivery} (h : Delivers j w c files ds c₁)
      (hread : w.read (ds.flatMap (·.block)) file.path = .ok content)
      (hproduce : j.produce c₁ file content = (c₂, .ok (d.block, d.summary, d.cached))) :
      Delivers j w c (files ++ [file]) (ds ++ [d]) c₂

/-- What breaks a run off at the file with index `i`, when `out` has been written and the cache is
`c`. -/
inductive Breaks (j : Job κ) (w : Surroundings) (i : Nat) (file : SourceFile) (out : Text) (c : κ) :
    Failure → Prop
  /-- The run is stopped before the file. -/
  | stopped {f : Failure} (hstop : w.stop i = some f) : Breaks j w i file out c f
  /-- The file cannot be read. -/
  | unread {f : Failure} (hstop : w.stop i = none) (hread : w.read out file.path = .error f) :
      Breaks j w i file out c (f.within ("failed to read " ++ file.path))
  /-- The file has a defect. -/
  | defect {content : Text} {c' : κ} {f : Failure} (hstop : w.stop i = none)
      (hread : w.read out file.path = .ok content)
      (hproduce : j.produce c file content = (c', .error f)) : Breaks j w i file out c f
  /-- The block cannot be appended. -/
  | unwritten {content : Text} {c' : κ} {d : Text × Summary × Bool} {f : Failure}
      (hstop : w.stop i = none) (hread : w.read out file.path = .ok content)
      (hproduce : j.produce c file content = (c', .ok d)) (happend : w.appendFault i = some f) :
      Breaks j w i file out c (f.within ("failed to write declarations for " ++ file.path))

/-- Why the cache could not be pruned after all files were delivered. -/
def pruneFailure (j : Job κ) (files : List SourceFile) (c : κ) : Option Failure :=
  (j.cache.bind fun ops => (prune ops files c).2.2).map (Failure.within "failed to prune cache")

variable {j : Job κ} {w w' : Surroundings} {total i : Nat} {file : SourceFile}
  {files : List SourceFile} {s : RunState κ}

/-! ## One file -/

/-- A block names the file it was produced for. -/
theorem produce_named {c c' : κ} {content block : Text} {summary : Summary} {cached : Bool}
    (h : j.produce c file content = (c', .ok (block, summary, cached))) :
    summary.path = file.path ∧ summary.relPath = file.relPath := by
  simp only [produce] at h
  split at h
  · obtain ⟨-, ⟨⟩⟩ := Prod.mk.inj h
    exact ⟨rfl, rfl⟩
  · split at h
    · obtain ⟨-, ⟨⟩⟩ := Prod.mk.inj h
    · next hok =>
      have hpath := convertFile_path hok
      obtain ⟨-, ⟨⟩⟩ := Prod.mk.inj h
      exact ⟨hpath, rfl⟩

/-- A file is delivered, or the run breaks off there and nothing but the cache has changed. -/
theorem convertOne_outcome (j : Job κ) (total : Nat) (file : SourceFile) (s : RunState κ)
    (hstop : w.stop i = none) :
    (∃ (content : Text) (d : Delivery) (c : κ), w.read s.output file.path = .ok content ∧
        j.produce s.cache file content = (c, .ok (d.block, d.summary, d.cached)) ∧
        j.convertOne w total i file s =
          (s.deliver c ⟨i + 1, total, file.relPath⟩ d.block d.summary d.cached, none)) ∨
      ∃ c f, j.convertOne w total i file s = ({ s with cache := c }, some f) ∧
        j.Breaks w i file s.output s.cache f := by
  cases hr : w.read s.output file.path with
  | error f => exact .inr ⟨s.cache, _, convertOne_unread hr, .unread hstop hr⟩
  | ok content =>
    cases hp : j.produce s.cache file content with
    | mk c produced =>
      cases produced with
      | error f => exact .inr ⟨c, f, convertOne_defect hr hp, .defect hstop hr hp⟩
      | ok d =>
        cases ha : w.appendFault i with
        | some f => exact .inr ⟨c, _, convertOne_unwritten hr hp ha, .unwritten hstop hr hp ha⟩
        | none =>
          exact .inl ⟨content, ⟨d.1, d.2.1, d.2.2⟩, c, rfl, hp, convertOne_delivered hr hp ha⟩

/-! ## The files of a run -/

theorem convertFrom_of_delivered {s₁ : RunState κ} (hstop : w.stop i = none)
    (hone : j.convertOne w total i file s = (s₁, none)) :
    j.convertFrom w total i (file :: files) s = j.convertFrom w total (i + 1) files s₁ := by
  rw [convertFrom_cons hstop, hone]

theorem convertFrom_of_broken {s₁ : RunState κ} {f : Failure} (hstop : w.stop i = none)
    (hone : j.convertOne w total i file s = (s₁, some f)) :
    j.convertFrom w total i (file :: files) s = (s₁, some f) := by
  rw [convertFrom_cons hstop, hone]

/-- The books balance over the files that a run has delivered: it has delivered all, or it was broken
off at the next one. `done` are the files delivered before, with index `i` behind them. -/
theorem convertFrom_balance {c : κ} {done : List SourceFile} {ds : List Delivery}
    (hd : j.Delivers w c done ds s.cache)
    (ht : Tallies total done ds s.output s.progress s.files s.stats)
    (files : List SourceFile) :
    ∃ now ds' c', now <+: files ∧ j.Delivers w c (done ++ now) ds' c' ∧
      Tallies total (done ++ now) ds' (j.convertFrom w total done.length files s).1.output
        (j.convertFrom w total done.length files s).1.progress
        (j.convertFrom w total done.length files s).1.files
        (j.convertFrom w total done.length files s).1.stats ∧
      (now = files ∧ (j.convertFrom w total done.length files s).2 = none ∧
          (j.convertFrom w total done.length files s).1.cache = c' ∨
        ∃ file rest f, files = now ++ file :: rest ∧
          (j.convertFrom w total done.length files s).2 = some f ∧
          j.Breaks w (done ++ now).length file
            (j.convertFrom w total done.length files s).1.output c' f) := by
  induction files generalizing done ds s with
  | nil =>
    exact ⟨[], ds, s.cache, List.prefix_rfl, by simpa using hd, by simpa [convertFrom] using ht,
      .inl ⟨rfl, rfl, rfl⟩⟩
  | cons file files ih =>
    cases hstop : w.stop done.length with
    | some f =>
      refine ⟨[], ds, s.cache, List.nil_prefix, by simpa using hd, ?_, .inr ⟨file, files, f, rfl, ?_⟩⟩
      · simpa [convertFrom, hstop] using ht
      · simp only [convertFrom, hstop, List.append_nil, true_and]
        exact .stopped hstop
    | none =>
      obtain ⟨content, d, c₁, hr, hp, hone⟩ | ⟨c₁, f, hone, hbreak⟩ :=
        convertOne_outcome j total file s hstop
      · obtain ⟨hpath, hrel⟩ := produce_named hp
        rw [ht.output] at hr
        have hd' := hd.concat hr hp
        obtain ⟨now, ds', c', hpre, hdel, htal, hend⟩ :=
          ih (s := s.deliver c₁ ⟨done.length + 1, total, file.relPath⟩ d.block d.summary d.cached)
            hd' (ht.deliver hpath hrel)
        simp only [List.length_append, List.length_cons, List.length_nil, List.append_assoc,
          List.cons_append, List.nil_append] at hdel htal hend
        rw [convertFrom_of_delivered hstop hone]
        refine ⟨file :: now, ds', c', (List.prefix_cons_inj file).mpr hpre, hdel, htal, ?_⟩
        obtain ⟨rfl, hnone, hcache⟩ | ⟨next, rest, f, rfl, hfail, hbreak⟩ := hend
        · exact .inl ⟨rfl, hnone, hcache⟩
        · refine .inr ⟨next, rest, f, rfl, hfail, ?_⟩
          simpa using hbreak
      · rw [convertFrom_of_broken hstop hone]
        refine ⟨[], ds, s.cache, List.nil_prefix, by simpa using hd, by simpa using ht,
          .inr ⟨file, files, f, rfl, rfl, ?_⟩⟩
        simpa using hbreak

/-! ## Files that a run does not reach -/

theorem convertOne_congr (hread : ∀ out, w'.read out file.path = w.read out file.path)
    (happend : w'.appendFault = w.appendFault) :
    j.convertOne w' total i file s = j.convertOne w total i file s := by
  simp only [convertOne, hread, happend]

theorem length_files_le (j : Job κ) (w : Surroundings) (total i : Nat) (files : List SourceFile)
    (s : RunState κ) : s.files.length ≤ (j.convertFrom w total i files s).1.files.length := by
  induction files generalizing i s with
  | nil => exact Nat.le_refl _
  | cons file files ih =>
    cases hstop : w.stop i with
    | some f => simp [convertFrom, hstop]
    | none =>
      obtain ⟨-, d, c, -, -, hone⟩ | ⟨c, f, hone, -⟩ := convertOne_outcome j total file s hstop
      · rw [convertFrom_of_delivered hstop hone]
        have hle := ih (i + 1) (s.deliver c ⟨i + 1, total, file.relPath⟩ d.block d.summary d.cached)
        have hlen : (s.deliver c ⟨i + 1, total, file.relPath⟩ d.block d.summary d.cached).files.length =
            s.files.length + 1 := by simp [RunState.deliver]
        omega
      · rw [convertFrom_of_broken hstop hone]

/-- A run that delivers at most `k` files does not depend on what reading the files behind the next
one gives. -/
theorem convertFrom_congr (hstop : w'.stop = w.stop) (happend : w'.appendFault = w.appendFault)
    {k : Nat}
    (hread : ∀ out, ∀ file ∈ files.take (k + 1), w'.read out file.path = w.read out file.path)
    (hk : (j.convertFrom w total i files s).1.files.length ≤ s.files.length + k) :
    j.convertFrom w' total i files s = j.convertFrom w total i files s := by
  induction files generalizing i s k with
  | nil => rfl
  | cons file files ih =>
    cases hs : w.stop i with
    | some f => simp only [convertFrom, hstop, hs]
    | none =>
      have hs' : w'.stop i = none := by rw [hstop, hs]
      have hfirst : j.convertOne w' total i file s = j.convertOne w total i file s :=
        convertOne_congr (fun out => hread out file (by simp)) happend
      obtain ⟨-, d, c, -, -, hone⟩ | ⟨c, f, hone, -⟩ := convertOne_outcome j total file s hs
      · rw [convertFrom_of_delivered hs hone] at hk ⊢
        rw [convertFrom_of_delivered hs' (hfirst.trans hone)]
        have hle := length_files_le j w total (i + 1) files
          (s.deliver c ⟨i + 1, total, file.relPath⟩ d.block d.summary d.cached)
        have hlen : (s.deliver c ⟨i + 1, total, file.relPath⟩ d.block d.summary d.cached).files.length =
            s.files.length + 1 := by simp [RunState.deliver]
        -- a delivery was made, so that one less is left of the `k`
        obtain _ | k := k
        · omega
        · refine ih (k := k) (fun out file' hmem => hread out file' ?_) (by omega)
          rw [List.take_succ_cons]
          exact List.mem_cons_of_mem _ hmem
      · rw [convertFrom_of_broken hs hone, convertFrom_of_broken hs' (hfirst.trans hone)]

/-! ## Whole runs -/

/-- The report on a run that ends in a state. -/
def reportOf (s : RunState κ) (failure : Option Failure) : RunReport κ :=
  { cache := s.cache, output := s.output, progress := s.progress, result := some (s.stats, s.files)
    failure := failure }

theorem run_of_delivered {c : κ}
    (h : j.convertFrom w files.length 0 files { cache := c } = (s, none)) :
    j.run w (.ok files) c = reportOf (j.finish files s).1 (j.finish files s).2 := by
  simp only [run, convertAll, h, reportOf]

theorem run_of_broken {c : κ} {f : Failure}
    (h : j.convertFrom w files.length 0 files { cache := c } = (s, some f)) :
    j.run w (.ok files) c = reportOf s (some f) := by
  simp only [run, convertAll, h, reportOf]

/-- Pruning the cache leaves the books alone. -/
theorem finish_balance {done : List SourceFile} {ds : List Delivery} (j : Job κ)
    (files : List SourceFile) (ht : Tallies total done ds s.output s.progress s.files s.stats) :
    Tallies total done ds (j.finish files s).1.output (j.finish files s).1.progress
        (j.finish files s).1.files (j.finish files s).1.stats ∧
      (j.finish files s).2 = j.pruneFailure files s.cache := by
  simp only [finish, pruneFailure]
  cases j.cache with
  | none => exact ⟨ht, rfl⟩
  | some ops =>
    simp only [Option.bind_some]
    obtain ⟨c, n, _ | f⟩ := prune ops files s.cache
    · exact ⟨⟨ht.output, ht.progress, ht.summaries, ht.named, ht.handled, ht.classCount,
        ht.methodCount, ht.variableCount, ht.bytes⟩, rfl⟩
    · exact ⟨ht, rfl⟩

end Job

/-- The surroundings where reading any path but the given ones gives something else. -/
def Surroundings.blindedBut (w : Surroundings) (paths : List Text)
    (other : Text → Text → Outcome Text) : Surroundings :=
  { w with read := fun out path => if path ∈ paths then w.read out path else other out path }

namespace Job

variable {κ : Type}

/-- **The books of a run balance, wherever it ends.** A run has delivered the first so many files.
Its output is their blocks one after the other, and its progress, its summaries and its statistics are
those of these files. No file behind the next one is read: whatever reading it gave, the run would be
the same. Either all files were delivered, and then only pruning the cache can have failed; or the run
was broken off at the next file. So a run without a failure has delivered all files. -/
theorem run_balance (j : Job κ) (w : Surroundings) (files : List SourceFile) (c : κ) :
    ∃ (ds : List Delivery) (summaries : List Summary) (stats : RunStats) (c' : κ),
      (j.run w (.ok files) c).result = some (stats, summaries) ∧
      j.Delivers w c (files.take ds.length) ds c' ∧
      Tallies files.length (files.take ds.length) ds (j.run w (.ok files) c).output
        (j.run w (.ok files) c).progress summaries stats ∧
      (∀ other, j.run (w.blindedBut ((files.take (ds.length + 1)).map SourceFile.path) other)
          (.ok files) c = j.run w (.ok files) c) ∧
      (ds.length = files.length ∧ (j.run w (.ok files) c).failure = j.pruneFailure files c' ∨
        ∃ file f, files[ds.length]? = some file ∧ (j.run w (.ok files) c).failure = some f ∧
          j.Breaks w ds.length file (j.run w (.ok files) c).output c' f) ∧
      ((j.run w (.ok files) c).failure = none → ds.length = files.length) := by
  obtain ⟨now, ds, c', hpre, hdel, htal, hend⟩ :=
    convertFrom_balance (s := { cache := c }) (.nil (j := j) (w := w) (c := c))
      (.nil files.length) files
  simp only [List.nil_append, List.length_nil] at hdel htal hend
  have hlen : ds.length = now.length := htal.length_eq
  have hnow : files.take ds.length = now := by
    rw [hlen]
    exact (List.prefix_iff_eq_take.mp hpre).symm
  have hblind : ∀ other,
      j.run (w.blindedBut ((files.take (ds.length + 1)).map SourceFile.path) other) (.ok files) c =
        j.run w (.ok files) c := by
    intro other
    have hsame : j.convertFrom (w.blindedBut ((files.take (ds.length + 1)).map SourceFile.path) other)
        files.length 0 files { cache := c } = j.convertFrom w files.length 0 files { cache := c } :=
      convertFrom_congr (k := ds.length) rfl rfl
        (fun out file hmem => if_pos (List.mem_map_of_mem hmem)) (by rw [htal.summaries]; simp)
    simp only [run, convertAll, hsame]
  rw [← hnow] at hdel htal
  generalize hfrom : j.convertFrom w files.length 0 files { cache := c } = r at htal hend
  obtain ⟨s, failure⟩ := r
  obtain ⟨hall, rfl, rfl⟩ | ⟨file, rest, f, hfiles, rfl, hbreak⟩ := hend
  · have hcount : ds.length = files.length := by rw [hlen, hall]
    obtain ⟨hbooks, hprune⟩ := finish_balance j files htal
    rw [run_of_delivered hfrom] at hblind ⊢
    exact ⟨ds, _, _, s.cache, rfl, hdel, hbooks, hblind, .inl ⟨hcount, hprune⟩, fun _ => hcount⟩
  · rw [run_of_broken hfrom] at hblind ⊢
    refine ⟨ds, _, _, c', rfl, hdel, htal, hblind, .inr ⟨file, f, ?_, rfl, ?_⟩,
      fun hnone => absurd hnone (Option.some_ne_none f)⟩
    · rw [hfiles, hlen]
      simp
    · rw [hlen]
      exact hbreak

end Job

end StubDecl
