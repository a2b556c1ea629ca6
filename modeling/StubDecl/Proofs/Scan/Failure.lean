import StubDecl.Proofs.Scan.Step

/-!
# How a scan fails

A scan fails at the first line that is a defect, or at the end of the file: `Scanner.Unfinished` lists the
states in which a file cannot end. Whether and how a scan fails at a line is decided by the lines up to it
(`Scanner.steps_eq_error_iff`).
-/

namespace StubDecl

namespace Scanner

variable {file line : Text} {n : Int} {s t : Scanner} {f : Failure}

/-! ## Lines one after the other -/

theorem steps_append (file : Text) (s : Scanner) (n : Int) (xs ys : List Text) :
    steps file s n (xs ++ ys) =
      (steps file s n xs).bind fun t => steps file t (n + xs.length) ys := by
  induction xs generalizing s n with
  | nil => simp [steps, Except.bind]
  | cons x xs ih =>
    rw [List.cons_append, steps, steps]
    cases step file s n x with
    | error g => rfl
    | ok t =>
      have hn : n + 1 + (xs.length : Int) = n + ((x :: xs).length : Int) := by
        rw [List.length_cons]
        omega
      simp only [ih, hn]

theorem steps_hasCurrent {ls : List Text} (hs : s.HasCurrent) (h : steps file s n ls = .ok t) :
    t.HasCurrent := by
  induction ls generalizing s n with
  | nil =>
    cases h
    exact hs
  | cons l ls ih =>
    rw [steps] at h
    split at h
    · next u hu => exact ih ((step_ok hs hu).hasCurrent hs) h
    · cases h

/-- Lines fail at the first of them that is no step. -/
theorem steps_eq_error_iff {ls : List Text} : steps file s n ls = .error f ↔
    ∃ before line after t, ls = before ++ line :: after ∧ steps file s n before = .ok t ∧
      step file t (n + before.length) line = .error f := by
  constructor
  · intro h
    induction ls generalizing s n with
    | nil => cases h
    | cons l ls ih =>
      rw [steps] at h
      split at h
      · next u hu =>
        obtain ⟨before, line, after, t, rfl, hbefore, hline⟩ := ih h
        have hn : n + 1 + (before.length : Int) = n + ((l :: before).length : Int) := by
          rw [List.length_cons]
          omega
        refine ⟨l :: before, line, after, t, rfl, ?_, hn ▸ hline⟩
        rw [steps, hu]
        exact hbefore
      · next g hg =>
        cases h
        exact ⟨[], l, ls, s, rfl, rfl, by simpa using hg⟩
  · rintro ⟨before, line, after, t, rfl, hbefore, hline⟩
    rw [steps_append, hbefore]
    simp only [Except.bind, steps, hline]

/-! ## The end of the file -/

/-- The states in which a file cannot end, and what ending there fails with. -/
inductive Unfinished (file : Text) : Scanner → Failure → Prop
  /-- A doc block is open. -/
  | inDoc {k : Int} {sts : List Stub} :
      Unfinished file ⟨.inDoc k, sts⟩ (unterminated file k "doc block")
  /-- A literal is open. -/
  | inCode {k : Int} {sts : List Stub} :
      Unfinished file ⟨.inCode k, sts⟩ (unterminated file k "code block")
  /-- There is no stub. -/
  | empty : Unfinished file ⟨.idle, []⟩ (defect .missingClass file 0 [])
  /-- A doc block waits for its declaration. -/
  | orphan {st : Stub} {sts : List Stub} (h : sts.reverse.find? (·.kind = .unknown) = some st) :
      Unfinished file ⟨.idle, sts⟩ (defect .orphanDoc file st.line (st.docLines.headD []))
  /-- All stubs are declared, but the first one is no class. -/
  | noClass {first : Stub} {sts : List Stub} (hk : first.kind ≠ .classDecl)
      (hall : ∀ st ∈ sts ++ [first], st.kind ≠ .unknown) :
      Unfinished file ⟨.idle, sts ++ [first]⟩
        (defect .missingClass file first.line (first.codeLines.headD []))

theorem finish_error (h : s.finish file = .error f) : Unfinished file s f := by
  obtain ⟨mode, sts⟩ := s
  cases mode with
  | inDoc k =>
    cases h
    exact .inDoc
  | inCode k =>
    cases h
    exact .inCode
  | idle =>
    obtain rfl | ⟨rest, first, rfl⟩ := sts.eq_nil_or_concat'
    · cases h
      exact .empty
    · simp only [finish, List.reverse_append, List.reverse_cons, List.reverse_nil, List.nil_append,
        List.singleton_append] at h
      split at h
      · next st hst =>
        cases h
        exact .orphan (by simpa using hst)
      · next hnone =>
        have hall : ∀ st ∈ rest ++ [first], st.kind ≠ .unknown := by
          have hall' := List.find?_eq_none.mp hnone
          intro st hst
          simpa using hall' st (by simpa [or_comm] using hst)
        split at h
        · cases h
        · next hk =>
          cases h
          exact .noClass (by simpa [StubKind.isClass] using hk) hall

theorem Unfinished.cause_eq (h : Unfinished file s f) :
    ∃ d, f.cause = .defect d ∧ d.file = file := by
  cases h <;> exact ⟨_, rfl, rfl⟩

/-- A scan fails at a line or at the end. -/
theorem scan_eq_error {content : Text} (h : scan file content = .error f) :
    steps file {} 1 (sourceLines content) = .error f ∨
      ∃ s, steps file {} 1 (sourceLines content) = .ok s ∧ Unfinished file s f := by
  unfold scan at h
  split at h
  · next s hs => exact .inr ⟨s, hs, finish_error h⟩
  · next g hg =>
    cases h
    exact .inl hg

/-- Whatever a scan fails with is a defect. -/
theorem cause_of_scan {content : Text} (h : scan file content = .error f) : ∃ d, f.cause = .defect d := by
  obtain hline | ⟨s, -, hend⟩ := scan_eq_error h
  · obtain ⟨before, line, after, t, -, hbefore, hline⟩ := steps_eq_error_iff.mp hline
    obtain ⟨kind, hcause, -⟩ := (step_error (steps_hasCurrent (.inl rfl) hbefore) hline).cause_eq
    exact ⟨_, hcause⟩
  · obtain ⟨d, hcause, -⟩ := hend.cause_eq
    exact ⟨d, hcause⟩

end Scanner

end StubDecl
