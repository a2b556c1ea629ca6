import StubDecl.Proofs.Cache.Record
import StubDecl.Proofs.Cache.Schema
import StubDecl.Proofs.Run.Visit

/-!
# When a persistent cache can be seen

A store lives through sessions. In each of them it is readied for the settings of a project, and a run
is made over whatever files are there. The store keeps blocks repaired, so a run does not always write
what it would write without a cache: it does if and only if all blocks that it takes from the store are
well-formed UTF-8 (`Session.output_eq_uncached_iff`). A block ends with a newline, so that the first
block with a stray byte makes a difference that nothing behind it can undo.

The store is empty, or it names the settings under which all its blocks were rendered
(`Session.Labelled`); this is what readying it for other settings has to know.
-/

namespace StubDecl

/-! ## Blocks end with a newline -/

theorem Style.members_newline {y : Style} {file name block : Text} {closed : Bool} {ss : List Stub}
    (h : y.members file name closed ss = .ok block) : ∃ t, block = t ++ [0x0a] := by
  induction ss generalizing closed block with
  | nil =>
    cases h
    exact ⟨closing closed, rfl⟩
  | cons s ss ih =>
    simp only [members] at h
    split at h
    · cases h
    · obtain ⟨rest, hrest, rfl⟩ := Outcome.map_eq_ok h
      obtain ⟨t, rfl⟩ := ih hrest
      exact ⟨_, (List.append_assoc ..).symm⟩
    · obtain ⟨rest, hrest, rfl⟩ := Outcome.map_eq_ok h
      obtain ⟨t, rfl⟩ := ih hrest
      exact ⟨_, (List.append_assoc ..).symm⟩
    · cases h

/-- The block of a file ends with a newline. -/
theorem convertFile_newline {m : TypeTable} {y : Style} {file content block : Text} {s : Summary}
    (h : convertFile m y file content = .ok (block, s)) : ∃ t, block = t ++ [0x0a] := by
  obtain ⟨stubs, -, hrender, -⟩ := convertFile_eq_ok h
  cases stubs with
  | nil => cases hrender
  | cons c ss =>
    simp only [Style.render] at hrender
    split at hrender
    · obtain ⟨rest, hrest, rfl⟩ := Outcome.map_eq_ok hrender
      obtain ⟨t, rfl⟩ := Style.members_newline hrest
      exact ⟨_, (List.append_assoc ..).symm⟩
    · cases hrender

/-! ## One run -/

/-- If the block of a visit was taken from the cache and appended, the block rendered from the content
is well-formed. -/
def Visit.Intact (m : TypeTable) (y : Style) (v : Visit) : Prop :=
  v.cached = true → v.appended = true →
    ∀ block s, convertFile m y v.path v.content = .ok (block, s) → block.isUtf8 = true

theorem Visit.intact_of_rendered {m : TypeTable} {y : Style} {v : Visit} (h : v.cached = false) :
    v.Intact m y := by
  intro hcached
  rw [h] at hcached
  cases hcached

namespace Job

open BlockCache

variable {κ κ' : Type} {ops : BlockCache κ} {image : CachedBlock → CachedBlock} {faults : Faults}
  {failure : Failure} {j : Job κ} {known : Set Text} {w : Surroundings} {s : RunState κ}
  {total i : Nat} {file : SourceFile} {files : List SourceFile}

theorem visits_of_failed {s₁ : RunState κ} {f : Failure}
    (hone : j.convertOne w total i file s = (s₁, some f)) :
    ∀ v ∈ j.visits w total i (file :: files) s, v.appended = false := by
  intro v hv
  simp only [visits] at hv
  split at hv
  · cases hv
  · split at hv
    · cases hv
    · rw [hone] at hv
      rw [List.mem_singleton.mp hv]

theorem convertOne_output (j : Job κ) (w : Surroundings) (total i : Nat) (file : SourceFile)
    (s : RunState κ) : ∃ t, (j.convertOne w total i file s).1.output = s.output ++ t := by
  simp only [convertOne]
  split
  · exact ⟨[], (List.append_nil _).symm⟩
  · split
    · exact ⟨[], (List.append_nil _).symm⟩
    · split
      · exact ⟨[], (List.append_nil _).symm⟩
      · exact ⟨_, rfl⟩

/-- Nothing that was written is taken back. -/
theorem convertFrom_output (j : Job κ) (w : Surroundings) (total i : Nat) (files : List SourceFile)
    (s : RunState κ) : ∃ t, (j.convertFrom w total i files s).1.output = s.output ++ t := by
  induction files generalizing i s with
  | nil => exact ⟨[], (List.append_nil _).symm⟩
  | cons file files ih =>
    cases hstop : w.stop i with
    | some f =>
      rw [convertFrom, hstop]
      exact ⟨[], (List.append_nil _).symm⟩
    | none =>
      rw [convertFrom_cons hstop]
      obtain ⟨t, ht⟩ := convertOne_output j w total i file s
      generalize j.convertOne w total i file s = r at ht
      obtain ⟨s₁, _ | f⟩ := r
      · obtain ⟨u, hu⟩ := ih (i + 1) s₁
        refine ⟨t ++ u, ?_⟩
        rw [← List.append_assoc, ← ht]
        exact hu
      · exact ⟨t, ht⟩

/-- A block with a stray byte makes a difference for good. -/
theorem isUtf8_of_output_eq {m : TypeTable} {y : Style} {path content block t u v : Text}
    {summary : Summary} (hok : convertFile m y path content = .ok (block, summary))
    (h : t ++ block.repair ++ u = t ++ block ++ v) : block.isUtf8 = true := by
  obtain ⟨r, rfl⟩ := convertFile_newline hok
  rw [List.append_assoc, List.append_assoc] at h
  exact Text.isUtf8_of_append_eq (by decide) (List.append_cancel_left h)

/-- A run whose cache gives back repaired blocks writes what a run without a cache writes if and only
if the blocks it takes from the cache need no repair. -/
theorem convertFrom_output_iff (hj : j.cache = some (ops.faulty faults failure)) (hk : ops.Keeps image)
    (himage : ∀ b, (image b).block = b.block.repair) (hinj : Set.InjOn contentHash known)
    (hs : ops.Sound image j.table j.style known s.cache) {s' : RunState κ'}
    (hout : s'.output = s.output) (hv : ∀ v ∈ j.visits w total i files s, v.content ∈ known) :
    (j.convertFrom w total i files s).1.output =
        ((j.uncached κ').convertFrom w total i files s').1.output ↔
      ∀ v ∈ j.visits w total i files s, v.Intact j.table j.style := by
  induction files generalizing i s s' with
  | nil => exact iff_of_true hout.symm (List.forall_mem_nil _)
  | cons file files ih =>
    cases hstop : w.stop i with
    | some f =>
      rw [convertFrom, convertFrom, visits, hstop]
      exact iff_of_true hout.symm (List.forall_mem_nil _)
    | none =>
      rw [convertFrom_cons hstop, convertFrom_cons hstop]
      obtain ⟨f, c, hone, hplain, -⟩ | ⟨t, block, summary, hr, hok, hplain, hcase⟩ :=
        convertOne_cases hj hk hs hinj total i (fun t => mem_of_visits_cons hstop hv) hout
      · rw [hone, hplain]
        refine iff_of_true hout.symm fun v hmem _ happ => ?_
        rw [visits_of_failed hone v hmem] at happ
        cases happ
      · have hv' : ∀ {s₁}, j.convertOne w total i file s = (s₁, none) →
            ∀ v ∈ j.visits w total (i + 1) files s₁, v.content ∈ known :=
          fun hone v hmem => hv v (mem_visits_of_delivered hstop hone hmem)
        obtain ⟨c, hc, hone, hs'⟩ | ⟨b, hb, hc, hone⟩ := hcase <;>
          rw [hplain, hone, visits_of_delivered hstop hr hone, List.forall_mem_cons, hc]
        · rw [and_iff_right (Visit.intact_of_rendered rfl)]
          exact ih hs' (congrArg (· ++ block) hout) (hv' hone)
        · have hblock : b.block = block.repair := by rw [hb, himage, blockOf]
          by_cases hu : block.isUtf8 = true
          · have hsame : b.block = block := hblock.trans ((Text.repair_eq_self_iff block).mpr hu)
            rw [and_iff_right]
            · refine ih ?_ ?_ (hv' hone)
              · exact hs
              · rw [RunState.deliver_output, RunState.deliver_output, hout, hsame]
            · intro _ _ block' summary' hok'
              cases hok.symm.trans hok'
              exact hu
          · -- what is appended behind a block cannot make up for its stray bytes
            refine iff_of_false (fun heq => hu ?_) (fun h => hu (h.1 rfl rfl block summary hok))
            obtain ⟨x, hx⟩ := convertFrom_output j w total (i + 1) files
              (s.deliver s.cache ⟨i + 1, total, file.relPath⟩ b.block (summaryOf file b) true)
            obtain ⟨z, hz⟩ := convertFrom_output (j.uncached κ') w total (i + 1) files
              (s'.deliver s'.cache ⟨i + 1, total, file.relPath⟩ block
                { summary with relPath := file.relPath } false)
            rw [hx, hz, RunState.deliver_output, RunState.deliver_output, hout, hblock] at heq
            exact isUtf8_of_output_eq hok heq

/-- Ending a run writes nothing. -/
theorem run_output (j : Job κ) (w : Surroundings) (files : List SourceFile) (c : κ) :
    (j.run w (.ok files) c).output =
      (j.convertFrom w files.length 0 files { cache := c }).1.output := by
  simp only [run, convertAll]
  generalize j.convertFrom w files.length 0 files { cache := c } = r
  obtain ⟨s, _ | f⟩ := r
  · simp only [finish]
    split
    · rfl
    · split <;> rfl
  · rfl

/-- The same for a whole run. -/
theorem run_output_iff (hj : j.cache = some (ops.faulty faults failure)) (hk : ops.Keeps image)
    (himage : ∀ b, (image b).block = b.block.repair) (hinj : Set.InjOn contentHash known) {c : κ}
    (hs : ops.Sound image j.table j.style known c) {found : Outcome (List SourceFile)}
    (hv : ∀ v ∈ j.runVisits w found c, v.content ∈ known) (c' : κ') :
    (j.run w found c).output = ((j.uncached κ').run w found c').output ↔
      ∀ v ∈ j.runVisits w found c, v.Intact j.table j.style := by
  cases found with
  | error f => exact iff_of_true rfl nofun
  | ok files =>
    rw [run_output, run_output]
    exact convertFrom_output_iff hj hk himage hinj hs rfl hv

end Job

/-! ## Sessions -/

/-- What happens in one session: the store is readied for the settings of the project, and a run is
made over the files of the disk. -/
structure Session where
  project : Project
  disk : Disk
  request : RunRequest

namespace Session

open BlockCache

/-- How the project renders a file. -/
def render (s : Session) (path content : Text) : Outcome (Text × Summary) :=
  convertFile s.project.settings.typeTable s.project.settings.style path content

/-- The store when the run begins. -/
def prepared (s : Session) (st : BlockStore) : BlockStore := (st.prepare s.project.settings).1

/-- How the run goes. -/
def report (s : Session) (st : BlockStore) : RunReport BlockStore :=
  s.request.report s.project s.disk (some store) (s.prepared st)

/-- How the run goes without a cache. -/
def uncached (s : Session) : RunReport Unit := s.request.report s.project s.disk none ()

/-- The files that the run visits. -/
def visits (s : Session) (st : BlockStore) : List Visit :=
  s.request.visits s.project s.disk (some store) (s.prepared st)

/-- The store after a session. -/
def next (st : BlockStore) (s : Session) : BlockStore := (s.report st).cache

/-- The store after sessions. -/
def after (st : BlockStore) (sessions : List Session) : BlockStore := sessions.foldl next st

/-- The contents of files that sessions read. -/
def contents (st : BlockStore) (sessions : List Session) : List Text :=
  History.contents next (fun st s => (s.visits st).map (·.content)) st sessions

/-- Settings that render differently have different hashes. -/
def HashesTell (all : List Session) : Prop :=
  ∀ a ∈ all, ∀ b ∈ all, a.project.settings.hash = b.project.settings.hash →
    ∀ path content, a.render path content = b.render path content

/-- The blocks of the store are those that the session renders from known contents. -/
def Holds (s : Session) (known : Set Text) (st : BlockStore) : Prop :=
  store.Sound CachedBlock.repaired s.project.settings.typeTable s.project.settings.style known st

/-- The store is new, or it names the settings under which its blocks were rendered. -/
def Labelled (all : List Session) (known : Set Text) (st : BlockStore) : Prop :=
  st = {} ∨ ∃ a ∈ all, st.schema = ⟨BlockStore.currentVersion, a.project.settings.hash⟩ ∧
    a.Holds known st

variable {all : List Session} {known : Set Text} {st : BlockStore} {s : Session}

theorem holds_of_blocks_nil (h : st.blocks = []) : s.Holds known st := by
  intro p b hget
  obtain ⟨t, ht, -⟩ := store_get.mp hget
  rw [h] at ht
  cases ht

theorem Holds.congr {a : Session} (h : a.Holds known st)
    (hrender : ∀ path content, a.render path content = s.render path content) : s.Holds known st := by
  intro p b hget
  obtain ⟨t, ht, b₀, ⟨block, summary, hok, rfl⟩, rfl⟩ := h p b hget
  exact ⟨t, ht, _, ⟨block, summary, (hrender p t).symm.trans hok, rfl⟩, rfl⟩

/-- A store that is readied for a session names its settings and holds blocks that it renders. -/
theorem holds_prepared (hall : HashesTell all) (hs : s ∈ all) (h : Labelled all known st) :
    (s.prepared st).schema = ⟨BlockStore.currentVersion, s.project.settings.hash⟩ ∧
      s.Holds known (s.prepared st) := by
  have hnamed : st = {} ∨ ∃ old ≠ [], st.schema = ⟨BlockStore.currentVersion, old⟩ :=
    h.imp_right fun ⟨a, _, hschema, _⟩ => ⟨_, a.project.settings.hash_ne_nil, hschema⟩
  obtain ⟨hschema, hnil | ⟨hkept, hsame⟩⟩ :=
    st.prepareFor_eq s.project.settings.hash hnamed
  · exact ⟨hschema, holds_of_blocks_nil hnil⟩
  · refine ⟨hschema, ?_⟩
    rw [prepared, BlockStore.prepare, hkept]
    obtain rfl | ⟨a, ha, hlabel, hholds⟩ := h
    · exact holds_of_blocks_nil rfl
    · have hhash : a.project.settings.hash = s.project.settings.hash :=
        congrArg SchemaInfo.hash (hlabel.symm.trans hsame)
      exact hholds.congr (hall a ha s hs hhash)

/-- Every session leaves the store labelled. -/
theorem labelled_next (hall : HashesTell all) (hs : s ∈ all)
    (hreads : ∀ t ∈ (s.visits st).map (·.content), t ∈ known) (h : Labelled all known st) :
    Labelled all known (next st s) := by
  obtain ⟨hschema, hholds⟩ := holds_prepared hall hs h
  have hv : ∀ v ∈ s.visits st, v.content ∈ known := fun v hmem => hreads _ (List.mem_map_of_mem hmem)
  refine .inr ⟨s, hs, ?_, ?_⟩
  · refine Job.run_induction (j := s.request.job s.project (some store))
      (P := fun c => c.schema = ⟨_, _⟩) rfl ?_ ?_ hschema hv
    · intro c c' path t b _ _ hput hc
      obtain rfl := BlockStore.put_eq_ok hput
      exact hc
    · intro c c' p hdel hc
      cases hdel
      exact hc
  · exact Job.sound_run (j := s.request.job s.project (some store)) rfl store_keeps hholds hv

/-- Sessions leave the store labelled. -/
theorem labelled_after (hall : HashesTell all) (sessions : List Session)
    (hs : ∀ s ∈ sessions, s ∈ all) (hv : ∀ t ∈ contents st sessions, t ∈ known)
    (h : Labelled all known st) : Labelled all known (after st sessions) := by
  refine History.invariant sessions (fun st s hmem => labelled_next hall (hs s hmem)) hv ?_
  exact h

/-- **When the output of a run is that of a run without a cache.** After any sessions over a store that
was new at first, a run writes byte for byte what it writes without a cache if and only if every block
that it takes from the store and appends is well-formed UTF-8. -/
theorem output_eq_uncached_iff (sessions : List Session) (s : Session)
    (hall : HashesTell (sessions ++ [s]))
    (hinj : Set.InjOn contentHash { t | t ∈ contents {} (sessions ++ [s]) }) :
    (s.report (after {} sessions)).output = s.uncached.output ↔
      ∀ v ∈ s.visits (after {} sessions),
        v.Intact s.project.settings.typeTable s.project.settings.style := by
  have hread : ∀ t, t ∈ contents {} sessions ∨ t ∈ (s.visits (after {} sessions)).map (·.content) →
      t ∈ { t | t ∈ contents {} (sessions ++ [s]) } :=
    fun t => (History.mem_contents_concat _ sessions _).mpr
  have hlabelled := labelled_after hall sessions (fun a ha => List.mem_append_left _ ha)
    (fun t ht => hread t (.inl ht)) (.inl rfl)
  have hmem : s ∈ sessions ++ [s] := List.mem_append_right _ (List.mem_singleton_self s)
  obtain ⟨-, hholds⟩ := holds_prepared hall hmem hlabelled
  exact Job.run_output_iff (j := s.request.job s.project (some store)) rfl store_keeps (fun _ => rfl)
    hinj hholds (fun v hv => hread _ (.inr (List.mem_map_of_mem hv))) ()

/-- A session with one file, whose doc block has a stray byte. -/
def strayDoc : Session where
  project := { dir := "/" }
  disk := Disk.apply {} (.write "/A.js" (("/** " : Text) ++ 0xff :: (" */\nfunction A" : Text)))
  request := { source := "/" }

/-- In a second session the stray byte has become U+FFFD. -/
theorem output_eq_uncached_iff_strayDoc :
    let st := after {} [strayDoc]
    (strayDoc.report st).output ≠ strayDoc.uncached.output ∧
      ¬ ∀ v ∈ strayDoc.visits st, v.Intact {} {} := by
  have hsame : ∀ a ∈ [strayDoc] ++ [strayDoc], a = strayDoc := by
    intro a ha
    simpa using ha
  have hall : HashesTell ([strayDoc] ++ [strayDoc]) := by
    intro a ha b hb _ path content
    rw [hsame a ha, hsame b hb]
  have hread : ∀ t ∈ contents {} ([strayDoc] ++ [strayDoc]),
      ∀ u ∈ contents {} ([strayDoc] ++ [strayDoc]), t = u := by
    decide +kernel
  have hne : (strayDoc.report (after {} [strayDoc])).output ≠ strayDoc.uncached.output := by
    decide +kernel
  exact ⟨hne, fun h => hne ((output_eq_uncached_iff [strayDoc] strayDoc hall
    fun t ht u hu _ => hread t ht u hu).mpr h)⟩

end Session

end StubDecl
