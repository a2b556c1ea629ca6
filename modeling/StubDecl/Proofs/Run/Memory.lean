import StubDecl.Proofs.Cache.Bucket
import StubDecl.Proofs.File.Disk
import StubDecl.Proofs.Run.Accounting

/-!
# What a run leaves in a cache in memory

Producing a block for a file renews the entry of this file and no other (`Job.produce_renews`).
`Job.Upto` says what holds of the cache and the output when a run has delivered some files: every
delivery keeps it (`Job.Upto.deliver`), so it holds wherever the run ends (`Job.convertFrom_upto`).
A run without failure prunes the cache and leaves it with the files that it walked; a run that breaks
off at a file prunes nothing and leaves the entries behind that file alone
(`RunRequest.cache_of_report`).
-/

namespace StubDecl

namespace MemoryCache

/-- The entry of a path was made of a content. -/
def Holds (c : MemoryCache) (path content : Text) : Prop :=
  ∃ b, c.get? path = some b ∧ b.hash = contentHash content

/-- The blocks of files, one after the other. -/
def blocks (c : MemoryCache) (files : List SourceFile) : Text :=
  files.flatMap fun file => ((c.get? file.path).map (·.block)).getD []

/-- The entry of every file was made of what reading it gives when the blocks of the files before it
have been written. -/
def Current (w : Surroundings) (c : MemoryCache) (files : List SourceFile) : Prop :=
  ∀ before file after, files = before ++ file :: after →
    ∃ t, w.read (c.blocks before) file.path = .ok t ∧ c.Holds file.path t

/-- The paths in the cache that are not among the files. -/
def stale (c : MemoryCache) (files : List SourceFile) : List Text :=
  c.keys.filter fun q => q ∉ files.map (·.path)

/-- `c'` is `c` but for the entry of a path, which has a block made of a content. -/
structure Renews (c c' : MemoryCache) (path content block : Text) : Prop where
  entry : ∃ b, c'.get? path = some b ∧ b.hash = contentHash content ∧ b.block = block
  others : ∀ q, q ≠ path → c'.get? q = c.get? q
  keys : ∀ p : Text → Bool, p path = false → c'.keys.filter p = c.keys.filter p

variable {w : Surroundings} {c c' : MemoryCache} {files : List SourceFile} {file : SourceFile}
  {path t block : Text}

theorem blocks_concat : c.blocks (files ++ [file]) =
    c.blocks files ++ ((c.get? file.path).map (·.block)).getD [] := by
  simp [blocks]

theorem blocks_congr (h : ∀ file ∈ files, c'.get? file.path = c.get? file.path) :
    c'.blocks files = c.blocks files := by
  simp only [blocks, List.flatMap]
  congr 1
  exact List.map_congr_left fun file hfile => by rw [h file hfile]

theorem Current.congr (hc : c.Current w files)
    (h : ∀ file ∈ files, c'.get? file.path = c.get? file.path) : c'.Current w files := by
  rintro before file after rfl
  obtain ⟨t, hread, hholds⟩ := hc before file after rfl
  have hbefore : c'.blocks before = c.blocks before :=
    blocks_congr fun f hf => h f (List.mem_append_left _ hf)
  refine ⟨t, hbefore ▸ hread, ?_⟩
  rwa [Holds, h file (by simp)]

theorem Current.congr_read {w' : Surroundings} (hc : c.Current w files)
    (h : ∀ file ∈ files, ∀ out, w'.read out file.path = w.read out file.path) : c.Current w' files := by
  rintro before file after rfl
  obtain ⟨t, hread, hholds⟩ := hc before file after rfl
  exact ⟨t, (h file (by simp) _).trans hread, hholds⟩

theorem current_nil : c.Current w [] := by
  intro before file after h
  simp at h

theorem Current.concat (hc : c.Current w files) (hread : w.read (c.blocks files) file.path = .ok t)
    (hholds : c.Holds file.path t) : c.Current w (files ++ [file]) := by
  intro before f after h
  obtain rfl | ⟨after, last, rfl⟩ := List.eq_nil_or_concat after
  · obtain ⟨rfl, heq⟩ := List.append_inj' h rfl
    cases heq
    exact ⟨t, hread, hholds⟩
  · rw [List.concat_eq_append, ← List.cons_append, ← List.append_assoc] at h
    exact hc before f after (List.append_inj' h rfl).1

/-- Files whose entries are current have entries. -/
theorem Current.isSome_get? (hc : c.Current w files) {q : Text} (hq : q ∈ files.map (·.path)) :
    (c.get? q).isSome = true := by
  obtain ⟨file, hfile, rfl⟩ := List.mem_map.mp hq
  obtain ⟨before, after, rfl⟩ := List.append_of_mem hfile
  obtain ⟨t, -, b, hget, -⟩ := hc before file after rfl
  rw [hget, Option.isSome_some]

theorem Renews.holds (h : c.Renews c' path t block) : c'.Holds path t := by
  obtain ⟨b, hget, hhash, -⟩ := h.entry
  exact ⟨b, hget, hhash⟩

theorem renews_put {b : CachedBlock} (hpath : b.path = path) (hhash : b.hash = contentHash t)
    (hblock : b.block = block) : c.Renews (c.put b) path t block := by
  subst hpath
  refine ⟨⟨b, ?_, hhash, hblock⟩, fun q hq => ?_, fun p hp => ?_⟩
  · rw [put, Bucket.get?_insert, if_pos rfl]
  · rw [put, Bucket.get?_insert, if_neg hq]
  · exact Bucket.filter_keys_insert c hp b

end MemoryCache

namespace Job

open BlockCache MemoryCache

variable {j : Job MemoryCache} {w : Surroundings} {c₀ c : MemoryCache} {file : SourceFile}
  {files done : List SourceFile} {t : Text} {s : RunState MemoryCache}

/-! ## One file -/

theorem cachedBlock?_memory (hj : j.cache = some memory) (path hash : Text) :
    j.cachedBlock? c path hash = (c.get? path).filter (·.hash = hash) := by
  simp only [cachedBlock?, hj, memory]
  cases c.get? path with
  | none => rfl
  | some b => rw [Option.filter_some]; simp

/-- The block of a file is in the cache, or the file has a defect, or its block is rendered and
stored. -/
theorem produce_memory (hj : j.cache = some memory) (c : MemoryCache) (file : SourceFile) (t : Text) :
    (∃ b, c.get? file.path = some b ∧ b.hash = contentHash t ∧
        j.produce c file t = (c, .ok (b.block, summaryOf file b, true))) ∨
      (∃ f, convertFile j.table j.style file.path t = .error f ∧
        j.produce c file t = (c, .error f)) ∨
      ∃ block summary, convertFile j.table j.style file.path t = .ok (block, summary) ∧
        j.produce c file t = (c.put (blockOf file.path (contentHash t) block summary),
          .ok (block, { summary with relPath := file.relPath }, false)) := by
  cases hc : j.cachedBlock? c file.path (contentHash t) with
  | some b =>
    have hp : j.produce c file t = (c, .ok (b.block, summaryOf file b, true)) := by
      simp only [produce, hc]
    rw [cachedBlock?_memory hj, Option.filter_eq_some_iff, decide_eq_true_eq] at hc
    exact .inl ⟨b, hc.1, hc.2, hp⟩
  | none =>
    cases hok : convertFile j.table j.style file.path t with
    | error f => exact .inr (.inl ⟨f, rfl, by simp only [produce, hc, hok]⟩)
    | ok r =>
      obtain ⟨block, summary⟩ := r
      exact .inr (.inr ⟨block, summary, rfl, by simp only [produce, hc, hok, remember, hj, memory]⟩)

/-- There is a block and the entry of the file is renewed, or there is none and nothing changes. -/
theorem produce_renews (hj : j.cache = some memory) (c : MemoryCache) (file : SourceFile) (t : Text) :
    (∃ f, j.produce c file t = (c, .error f)) ∨
      ∃ c' block summary cached, j.produce c file t = (c', .ok (block, summary, cached)) ∧
        c.Renews c' file.path t block := by
  obtain ⟨b, hget, hhash, hp⟩ | ⟨f, -, hp⟩ | ⟨block, summary, -, hp⟩ := produce_memory hj c file t
  · exact .inr ⟨c, b.block, _, true, hp, ⟨b, hget, hhash, rfl⟩, fun _ _ => rfl, fun _ _ => rfl⟩
  · exact .inl ⟨f, hp⟩
  · exact .inr ⟨_, block, _, false, hp, renews_put rfl rfl rfl⟩

/-! ## The files of a run -/

/-- What holds when a run that started with `c₀` has delivered the files `done`: their entries are
current, all others are as they were, and the output is their blocks. -/
structure Upto (w : Surroundings) (c₀ : MemoryCache) (done : List SourceFile)
    (s : RunState MemoryCache) : Prop where
  output : s.output = s.cache.blocks done
  current : s.cache.Current w done
  others : ∀ q, q ∉ done.map (·.path) → s.cache.get? q = c₀.get? q
  /-- No key of another file comes or goes, so that pruning deletes what it would have deleted before. -/
  keys : ∀ p : Text → Bool, (∀ file ∈ done, p file.path = false) →
    s.cache.keys.filter p = c₀.keys.filter p
  count : s.files.length = done.length

/-- What holds when a run has delivered the files `done` and a failure has ended it at the next one.
The entry of this file is as it was, unless its block could not be appended. -/
structure Halted (w : Surroundings) (c₀ : MemoryCache) (done : List SourceFile) (file : SourceFile)
    (s : RunState MemoryCache) (f : Failure) : Prop where
  output : s.output = s.cache.blocks done
  current : s.cache.Current w done
  others : ∀ q, q ∉ (done ++ [file]).map (·.path) → s.cache.get? q = c₀.get? q
  own : s.cache.get? file.path = c₀.get? file.path ∨
    ∃ t f', w.read s.output file.path = .ok t ∧ s.cache.Holds file.path t ∧
      w.appendFault done.length = some f' ∧
      f = f'.within ("failed to write declarations for " ++ file.path)
  count : s.files.length = done.length

theorem upto_nil : Upto w c [] { cache := c } where
  output := rfl
  current := current_nil
  others := fun _ _ => rfl
  keys := fun _ _ => rfl
  count := rfl

/-- A renewed entry is not one of the files before. -/
theorem get?_of_renews {c c' : MemoryCache} {block : Text} (h : c.Renews c' file.path t block)
    (hnew : file.path ∉ done.map (·.path)) : ∀ f ∈ done, c'.get? f.path = c.get? f.path :=
  fun f hf => h.others f.path fun heq => hnew (heq ▸ List.mem_map_of_mem hf)

/-- Renewing the entry of the next file leaves the files behind it alone. -/
theorem Upto.get?_renewed (h : Upto w c₀ done s) {c' : MemoryCache} {block : Text}
    (hrenews : s.cache.Renews c' file.path t block) {q : Text}
    (hq : q ∉ (done ++ [file]).map (·.path)) : c'.get? q = c₀.get? q := by
  rw [List.map_append, List.mem_append, not_or] at hq
  exact (hrenews.others q (by simpa using hq.2)).trans (h.others q hq.1)

/-- **A delivery keeps what holds of the files before it.** -/
theorem Upto.deliver (h : Upto w c₀ done s) (hnew : file.path ∉ done.map (·.path))
    (hread : w.read s.output file.path = .ok t) {c' : MemoryCache} {block : Text}
    (hrenews : s.cache.Renews c' file.path t block) (calls : Progress) (summary : Summary)
    (cached : Bool) : Upto w c₀ (done ++ [file]) (s.deliver c' calls block summary cached) := by
  have hsame := get?_of_renews hrenews hnew
  have hblocks : c'.blocks done = s.output := (blocks_congr hsame).trans h.output.symm
  refine ⟨?_, (h.current.congr hsame).concat (hblocks ▸ hread) hrenews.holds, ?_, ?_, ?_⟩
  · obtain ⟨b, hget, -, hblock⟩ := hrenews.entry
    simp only [RunState.deliver, blocks_concat, hblocks, hget, Option.map_some, Option.getD_some,
      hblock]
  · exact fun q hq => h.get?_renewed hrenews hq
  · intro p hp
    have hfirst := h.keys p fun f hf => hp f (List.mem_append_left _ hf)
    exact (hrenews.keys p (hp file (by simp))).trans hfirst
  · simp [RunState.deliver, h.count]

/-- A failure that leaves the cache alone. -/
theorem Upto.halt (h : Upto w c₀ done s) (hnew : file.path ∉ done.map (·.path)) (f : Failure) :
    Halted w c₀ done file s f where
  output := h.output
  current := h.current
  others := fun q hq => h.others q fun hmem => hq (by simp [List.map_append, hmem])
  own := .inl (h.others _ hnew)
  count := h.count

/-- A failure to append a block that is in the cache already. -/
theorem Upto.unwritten (h : Upto w c₀ done s) (hnew : file.path ∉ done.map (·.path))
    (hread : w.read s.output file.path = .ok t) {c' : MemoryCache} {block : Text}
    (hrenews : s.cache.Renews c' file.path t block) {f : Failure}
    (happend : w.appendFault done.length = some f) :
    Halted w c₀ done file { s with cache := c' }
      (f.within ("failed to write declarations for " ++ file.path)) := by
  have hsame := get?_of_renews hrenews hnew
  refine ⟨?_, h.current.congr hsame, ?_, .inr ⟨t, f, hread, hrenews.holds, happend, rfl⟩, h.count⟩
  · exact h.output.trans (blocks_congr hsame).symm
  · exact fun q hq => h.get?_renewed hrenews hq

/-- One file more is delivered, or the run has ended there. -/
theorem convertOne_upto (hj : j.cache = some memory) (h : Upto w c₀ done s)
    (hnew : file.path ∉ done.map (·.path)) (total : Nat) :
    (∃ s', j.convertOne w total done.length file s = (s', none) ∧ Upto w c₀ (done ++ [file]) s') ∨
      ∃ s' f, j.convertOne w total done.length file s = (s', some f) ∧
        Halted w c₀ done file s' f := by
  cases hr : w.read s.output file.path with
  | error f => exact .inr ⟨s, _, convertOne_unread hr, h.halt hnew _⟩
  | ok t =>
    obtain ⟨f, hp⟩ | ⟨c', block, summary, cached, hp, hrenews⟩ := produce_renews hj s.cache file t
    · exact .inr ⟨s, f, convertOne_defect hr hp, h.halt hnew f⟩
    · cases ha : w.appendFault done.length with
      | some f => exact .inr ⟨_, _, convertOne_unwritten hr hp ha, h.unwritten hnew hr hrenews ha⟩
      | none => exact .inl ⟨_, convertOne_delivered hr hp ha, h.deliver hnew hr hrenews _ _ _⟩

/-- All files are delivered, or the run has ended at one of them. -/
theorem convertFrom_upto (hj : j.cache = some memory) (h : Upto w c₀ done s)
    (hnodup : ((done ++ files).map (·.path)).Nodup) (total : Nat) :
    (∃ s', j.convertFrom w total done.length files s = (s', none) ∧ Upto w c₀ (done ++ files) s') ∨
      ∃ now file rest s' f, files = now ++ file :: rest ∧
        j.convertFrom w total done.length files s = (s', some f) ∧
        Halted w c₀ (done ++ now) file s' f := by
  induction files generalizing done s with
  | nil => exact .inl ⟨s, rfl, by simpa using h⟩
  | cons file files ih =>
    have hnew : file.path ∉ done.map (·.path) := by
      simp only [List.map_append, List.map_cons, List.nodup_append] at hnodup
      exact fun hmem => hnodup.2.2 _ hmem _ List.mem_cons_self rfl
    cases hstop : w.stop done.length with
    | some f =>
      refine .inr ⟨[], file, files, s, f, rfl, by simp only [convertFrom, hstop], ?_⟩
      simpa using h.halt hnew f
    | none =>
      obtain ⟨s', hone, hs'⟩ | ⟨s', f, hone, hs'⟩ := convertOne_upto hj h hnew total
      · rw [convertFrom_of_delivered hstop hone]
        have hrest := ih hs' (by simpa using hnodup)
        simp only [List.length_append, List.length_cons, List.length_nil, List.append_assoc,
          List.cons_append, List.nil_append] at hrest
        refine hrest.imp_right ?_
        rintro ⟨now, next, rest, s₂, f, rfl, hfrom, hend⟩
        exact ⟨file :: now, next, rest, s₂, f, rfl, hfrom, hend⟩
      · rw [convertFrom_of_broken hstop hone]
        exact .inr ⟨[], file, files, s', f, rfl, rfl, by simpa using hs'⟩

/-! ## Pruning -/

theorem deleteStale_memory (stale : Text → Bool) (ps : List Text) (c : MemoryCache) (n : Nat) :
    deleteStale memory stale ps c n =
      ((ps.filter stale).foldl Bucket.erase c, n + (ps.filter stale).length, none) := by
  induction ps generalizing c n with
  | nil => rfl
  | cons p ps ih =>
    by_cases hp : stale p = true
    · have hdelete : memory.delete c p = .ok (c.erase p) := rfl
      simp only [deleteStale, hp, if_true, hdelete, ih, List.filter_cons_of_pos, List.foldl_cons,
        List.length_cons]
      rw [Nat.add_assoc, Nat.add_comm 1]
    · rw [List.filter_cons_of_neg hp, ← ih]
      simp only [deleteStale, hp, Bool.false_eq_true, if_false]

theorem prune_memory (files : List SourceFile) (c : MemoryCache) :
    prune memory files c = ((c.stale files).foldl Bucket.erase c, (c.stale files).length, none) := by
  have hstale : (fun q => !(files.any fun f => f.path = q)) =
      fun q => decide (q ∉ files.map (·.path)) := by
    funext q
    rw [Bool.eq_iff_iff]
    simp
  have hprune : prune memory files c =
      deleteStale memory (fun q => !(files.any fun f => f.path = q)) c.keys c 0 := rfl
  rw [hprune, hstale, deleteStale_memory, Nat.zero_add]
  rfl

/-- Only the entries of files are left. -/
theorem get?_prune_memory (files : List SourceFile) (c : MemoryCache) (q : Text) :
    (prune memory files c).1.get? q = if q ∈ files.map (·.path) then c.get? q else none := by
  rw [prune_memory, Bucket.get?_foldl_erase]
  simp only [MemoryCache.stale, List.mem_filter, decide_eq_true_eq]
  by_cases hq : q ∈ files.map (·.path)
  · rw [if_neg (fun h => h.2 hq), if_pos hq]
  · rw [if_neg hq]
    by_cases hkey : q ∈ c.keys
    · rw [if_pos ⟨hkey, hq⟩]
    · rw [if_neg (fun h => hkey h.1)]
      simpa [Bucket.mem_keys_iff] using hkey

theorem finish_memory (hj : j.cache = some memory) (files : List SourceFile)
    (s : RunState MemoryCache) :
    j.finish files s =
      ({ s with
          cache := (prune memory files s.cache).1
          stats := { s.stats with pruned := Int64.ofNat (s.cache.stale files).length } }, none) := by
  simp only [finish, hj, prune_memory]

/-! ## Whole runs -/

/-- What holds after a run that started with `c₀`, walked the files and did not fail. -/
structure Completed (w : Surroundings) (c₀ : MemoryCache) (files : List SourceFile)
    (s : RunState MemoryCache) : Prop where
  keys : ∀ q, q ∈ s.cache.keys ↔ q ∈ files.map (·.path)
  current : s.cache.Current w files
  output : s.output = s.cache.blocks files
  pruned : s.stats.pruned = Int64.ofNat (c₀.stale files).length

theorem Upto.completed (hj : j.cache = some memory) (h : Upto w c₀ files s) :
    ∃ s', j.finish files s = (s', none) ∧ Completed w c₀ files s' := by
  have hsame : ∀ file ∈ files,
      (prune memory files s.cache).1.get? file.path = s.cache.get? file.path := by
    intro file hfile
    rw [get?_prune_memory, if_pos (List.mem_map_of_mem hfile)]
  refine ⟨_, finish_memory hj files s, fun q => ?_, ?_, ?_, ?_⟩
  · rw [Bucket.mem_keys_iff, get?_prune_memory]
    by_cases hq : q ∈ files.map (·.path)
    · simp only [hq, if_true, h.current.isSome_get? hq]
    · simp only [hq, if_false, Option.isSome_none, Bool.false_eq_true]
  · exact h.current.congr hsame
  · exact h.output.trans (blocks_congr hsame).symm
  · have hstale := h.keys (fun q => q ∉ files.map (·.path)) fun file hfile => by
      simpa using ⟨file, hfile, rfl⟩
    simp only [stale, hstale]

/-- A run completes, or it ends at one of the files. -/
theorem run_memory (hj : j.cache = some memory) (hnodup : (files.map (·.path)).Nodup)
    (w : Surroundings) (c : MemoryCache) :
    (∃ s', j.run w (.ok files) c = reportOf s' none ∧ Completed w c files s') ∨
      ∃ done file rest s' f, files = done ++ file :: rest ∧
        j.run w (.ok files) c = reportOf s' (some f) ∧ Halted w c done file s' f := by
  obtain ⟨s', hfrom, hs'⟩ | ⟨done, file, rest, s', f, hsplit, hfrom, hs'⟩ :=
    convertFrom_upto hj (upto_nil (w := w) (c := c)) hnodup files.length
  · obtain ⟨s₂, hfinish, hs₂⟩ := Upto.completed hj (List.nil_append files ▸ hs')
    refine .inl ⟨s₂, ?_, hs₂⟩
    rw [run_of_delivered hfrom, hfinish]
  · exact .inr ⟨done, file, rest, s', f, hsplit, run_of_broken hfrom, hs'⟩

/-- Before pruning nothing is deleted. -/
theorem Halted.mem_keys {f : Failure} (h : Halted w c₀ done file s f) {q : Text} (hq : q ∈ c₀.keys) :
    q ∈ s.cache.keys := by
  rw [Bucket.mem_keys_iff] at hq ⊢
  by_cases hdone : q ∈ done.map (·.path)
  · exact h.current.isSome_get? hdone
  · by_cases hfile : q = file.path
    · subst hfile
      obtain hsame | ⟨t, -, -, ⟨b, hget, -⟩, -⟩ := h.own
      · rwa [hsame]
      · rw [hget, Option.isSome_some]
    · rwa [h.others q (by simpa [hfile] using hdone)]

end Job

namespace RunRequest

open BlockCache

theorem cache_job {r : RunRequest} (h : r.faults = {}) (p : Project) :
    (r.job p (some memory)).cache = some memory := by
  simp only [job, h]
  rfl

/-- **What a run leaves in the cache.** Without a failure the cache has the files that were walked,
each with an entry made of its content; as many entries were pruned as were there before of other
files; and the output is the blocks in the cache. A run that fails at a file has deleted nothing. The
entries of the files before are made of their contents, that of the file is as it was unless its block
could not be appended, and all others are as they were. -/
theorem cache_of_report (p : Project) {d : Disk} (hd : d.Proper) {r : RunRequest}
    (hfaults : r.faults = {}) (c : MemoryCache) {files : List SourceFile}
    (hfiles : d.sources p.settings.scope r.source = .ok files) {report : RunReport MemoryCache}
    (hreport : r.report p d (some memory) c = report) :
    ∃ stats summaries, report.result = some (stats, summaries) ∧
      (report.failure = none →
        (∀ q, q ∈ report.cache.keys ↔ q ∈ files.map (·.path)) ∧
          report.cache.Current (r.surroundings d) files ∧
          stats.pruned = Int64.ofNat (c.stale files).length ∧
          report.output = report.cache.blocks files) ∧
      ∀ f, report.failure = some f → ∃ done file rest,
        files = done ++ file :: rest ∧ summaries.length = done.length ∧
          (∀ q ∈ c.keys, q ∈ report.cache.keys) ∧
          report.cache.Current (r.surroundings d) done ∧
          (report.cache.get? file.path = c.get? file.path ∨
            ∃ t f', (r.surroundings d).read report.output file.path = .ok t ∧
              report.cache.Holds file.path t ∧ r.appendFault done.length = some f' ∧
              f = f'.within ("failed to write declarations for " ++ file.path)) ∧
          (∀ q, q ∉ (done ++ [file]).map (·.path) → report.cache.get? q = c.get? q) ∧
          report.output = report.cache.blocks done := by
  rw [RunRequest.report, hfiles] at hreport
  obtain ⟨s, hrun, hs⟩ | ⟨done, file, rest, s, f, hsplit, hrun, hs⟩ :=
    Job.run_memory (cache_job hfaults p) (hd.nodup_sources hfiles) (r.surroundings d) c
  · obtain rfl := hrun.symm.trans hreport
    exact ⟨s.stats, s.files, rfl, fun _ => ⟨hs.keys, hs.current, hs.pruned, hs.output⟩, nofun⟩
  · obtain rfl := hrun.symm.trans hreport
    refine ⟨s.stats, s.files, rfl, nofun, fun f' hf' => ⟨done, file, rest, hsplit, hs.count,
      fun q hq => hs.mem_keys hq, hs.current, ?_, hs.others, hs.output⟩⟩
    cases hf'
    exact hs.own

/-- Two classes on a disk. -/
def twoClasses : Disk :=
  (Disk.apply {} (.write "/A.js" "function A")).apply (.write "/B.js" "function B")

/-- An old entry of the second class, and one of a file that is gone. -/
def oldEntries : MemoryCache :=
  [("/B.js", { path := "/B.js", hash := "0", block := "old" }), ("/C.js", { path := "/C.js" })]

/-- The block of the second class cannot be appended: its entry has been renewed, and the entry of the
file that is gone is still there. -/
theorem cache_of_report_diskFull :
    let r : RunRequest :=
      { source := "/", appendFault := fun i => if i = 1 then some (Failure.ofMessage "disk full") else none }
    let report := r.report { dir := "/" } twoClasses (some memory) oldEntries
    twoClasses.Proper ∧ report.failure.isSome = true ∧
      report.cache.get? "/B.js" ≠ oldEntries.get? "/B.js" ∧
      ∃ stats summaries, report.result = some (stats, summaries) ∧
        ∃ done file rest, [⟨"/A.js", "A.js"⟩, ⟨"/B.js", "B.js"⟩] = done ++ file :: rest ∧
          summaries.length = done.length ∧ (∀ q ∈ oldEntries.keys, q ∈ report.cache.keys) ∧
          report.output = report.cache.blocks done := by
  intro r report
  have hproper : twoClasses.Proper := (Disk.proper_empty.apply _).apply _
  have hfail : report.failure.isSome = true := by decide +kernel
  have hfiles : twoClasses.sources (Project.settings { dir := "/" }).scope r.source =
      .ok [⟨"/A.js", "A.js"⟩, ⟨"/B.js", "B.js"⟩] := by decide +kernel
  obtain ⟨stats, summaries, hresult, -, hhalted⟩ :=
    cache_of_report { dir := "/" } hproper rfl oldEntries hfiles
      (rfl : r.report { dir := "/" } twoClasses (some memory) oldEntries = report)
  obtain ⟨f, hf⟩ := Option.isSome_iff_exists.mp hfail
  obtain ⟨done, file, rest, hsplit, hcount, hkeys, -, -, -, hout⟩ := hhalted f hf
  exact ⟨hproper, hfail, by decide +kernel, stats, summaries, hresult, done, file, rest, hsplit,
    hcount, hkeys, hout⟩

end RunRequest

end StubDecl
