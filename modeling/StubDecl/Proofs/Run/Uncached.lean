import StubDecl.Proofs.Run.Visit

/-!
# Runs without a cache

Two runs without a cache over the same files give the same report if the files read the same, whatever
stands in the place of the cache (`Job.run_uncached`).
-/

namespace StubDecl

variable {κ κ' : Type}

/-- The state with something else in the place of the cache. -/
def RunState.withCache (c : κ') (s : RunState κ) : RunState κ' :=
  { cache := c, output := s.output, files := s.files, stats := s.stats, progress := s.progress }

@[inherit_doc RunState.withCache]
def RunReport.withCache (c : κ') (r : RunReport κ) : RunReport κ' :=
  { cache := c, output := r.output, progress := r.progress, result := r.result, failure := r.failure }

namespace Job

variable {κ₀ : Type} {j : Job κ₀} {w w' : Surroundings} {total i : Nat} {files : List SourceFile}
  {s : RunState κ}

theorem convertOne_uncached {file : SourceFile}
    (hread : w'.read s.output file.path = w.read s.output file.path)
    (happend : w'.appendFault = w.appendFault) (c : κ') :
    (j.uncached κ').convertOne w' total i file (s.withCache c) =
      (((j.uncached κ).convertOne w total i file s).1.withCache c,
        ((j.uncached κ).convertOne w total i file s).2) := by
  have hout : (s.withCache c).output = s.output := rfl
  cases hr : w.read s.output file.path with
  | error f =>
    simp only [convertOne, hout, hread, hr]
  | ok content =>
    cases hc : convertFile j.table j.style file.path content with
    | error f =>
      simp only [convertOne, produce_uncached, hout, hread, hr, hc]
      rfl
    | ok r =>
      cases ha : w.appendFault i <;>
      · simp only [convertOne, produce_uncached, hout, hread, happend, hr, hc, Except.map, ha]
        rfl

theorem convertFrom_uncached (hstop : w'.stop = w.stop) (happend : w'.appendFault = w.appendFault)
    (hread : ∀ file ∈ files, ∀ out, w'.read out file.path = w.read out file.path) (c : κ') :
    (j.uncached κ').convertFrom w' total i files (s.withCache c) =
      (((j.uncached κ).convertFrom w total i files s).1.withCache c,
        ((j.uncached κ).convertFrom w total i files s).2) := by
  induction files generalizing i s with
  | nil => rfl
  | cons file files ih =>
    obtain ⟨hfile, hfiles⟩ := List.forall_mem_cons.mp hread
    cases hs : w.stop i with
    | some f => simp only [convertFrom, hstop, hs]
    | none =>
      rw [convertFrom_cons (hstop ▸ hs), convertFrom_cons hs, convertOne_uncached (hfile _) happend]
      generalize (j.uncached κ).convertOne w total i file s = r
      obtain ⟨s₁, _ | f⟩ := r
      · exact ih hfiles
      · rfl

/-- **A run without a cache depends on what is read only.** -/
theorem run_uncached (hstop : w'.stop = w.stop) (happend : w'.appendFault = w.appendFault)
    {found : Outcome (List SourceFile)}
    (hread : ∀ files, found = .ok files → ∀ file ∈ files, ∀ out,
      w'.read out file.path = w.read out file.path) (c : κ) (c' : κ') :
    (j.uncached κ').run w' found c' = ((j.uncached κ).run w found c).withCache c' := by
  cases found with
  | error f => rfl
  | ok files =>
    have hfrom : (j.uncached κ').convertFrom w' files.length 0 files { cache := c' } =
        (((j.uncached κ).convertFrom w files.length 0 files { cache := c }).1.withCache c',
          ((j.uncached κ).convertFrom w files.length 0 files { cache := c }).2) :=
      convertFrom_uncached (s := { cache := c }) hstop happend (hread files rfl) c'
    simp only [run, convertAll, hfrom]
    generalize (j.uncached κ).convertFrom w files.length 0 files { cache := c } = r
    obtain ⟨s₁, _ | f⟩ := r <;> rfl

end Job

end StubDecl
