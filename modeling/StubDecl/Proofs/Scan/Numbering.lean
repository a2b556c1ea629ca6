import StubDecl.Proofs.Scan.Failure
import StubDecl.Proofs.Scan.Run

/-!
# Line numbers

A scanner keeps the numbers of lines and reports them, and does nothing else with them. So it goes through
the same steps when the lines are numbered in another way (`Scanner.step_renumber`,
`Scanner.finish_renumber`), and lines without information take part in a scan only by being counted: it is
the scan of the other lines, with other numbers (`Scanner.steps_eq_filter`).
-/

namespace StubDecl

/-! ## Changing the numbers -/

/-- The defect with its line number changed. -/
def Defect.renumber (g : Int → Int) (d : Defect) : Defect := { d with line := g d.line }

/-- The cause with the line number of a defect changed. -/
def Cause.renumber (g : Int → Int) : Cause → Cause
  | .defect d => .defect (d.renumber g)
  | c => c

/-- The failure with the line number of a defect changed. -/
def Failure.renumber (g : Int → Int) (f : Failure) : Failure := { f with cause := f.cause.renumber g }

/-- The stub with its line number changed. -/
def Stub.renumber (g : Int → Int) (st : Stub) : Stub := { st with line := g st.line }

namespace Scanner

/-- What is open, since a line with another number. -/
def Mode.renumber (g : Int → Int) : Mode → Mode
  | .idle => .idle
  | .inDoc n => .inDoc (g n)
  | .inCode n => .inCode (g n)

/-- The scanner with all line numbers changed. -/
def renumber (g : Int → Int) (s : Scanner) : Scanner :=
  ⟨s.mode.renumber g, s.stubs.map (Stub.renumber g)⟩

end Scanner

/-- What may fail, with the line numbers of defects changed. -/
def Outcome.renumber {α : Type} (g : Int → Int) (x : Outcome α) : Outcome α :=
  x.mapError (Failure.renumber g)

@[simp] theorem Stub.renumber_kind (g : Int → Int) (st : Stub) : (st.renumber g).kind = st.kind := rfl

@[simp] theorem Outcome.renumber_ok {α : Type} (g : Int → Int) (a : α) :
    Outcome.renumber g (.ok a) = .ok a := rfl

@[simp] theorem Outcome.renumber_error {α : Type} (g : Int → Int) (f : Failure) :
    Outcome.renumber g (.error f : Outcome α) = .error (f.renumber g) := rfl

variable (g : Int → Int)

theorem LineShape.renumber_complete {shape : LineShape} {f : Stub → Stub}
    (h : shape.complete? = some f) (st : Stub) : (f st).renumber g = f (st.renumber g) := by
  cases declares_of_complete? h <;> rfl

theorem LineShape.renumber_modeAfter (shape : LineShape) (n : Int) :
    (shape.modeAfter n).renumber g = shape.modeAfter (g n) := by
  unfold modeAfter
  split <;> rfl

namespace Scanner

variable {file line : Text} {n : Int} {s s' : Scanner} {f : Failure}

/-! ## One line -/

theorem Step.renumber (h : Step n line s s') : Step (g n) line (s.renumber g) (s'.renumber g) := by
  cases h with
  | trash ht => exact .trash ht
  | docLine ht he => exact .docLine ht he
  | docEnd ht he => exact .docEnd ht he
  | codeLine ht he => exact .codeLine ht he
  | codeEnd ht he => exact .codeEnd ht he
  | docStart hc ho => exact .docStart hc ho
  | oneLineDoc hc ho => exact .oneLineDoc hc ho
  | extension hc hk =>
    simp only [Scanner.renumber, List.map_append, List.map_cons, List.map_nil]
    exact .extension hc hk
  | @complete f st sts hc hk =>
    have hstub : ((f st).withCode line).renumber g = (f (st.renumber g)).withCode line := by
      rw [← LineShape.renumber_complete g hc]
      rfl
    simp only [Scanner.renumber, List.map_cons, LineShape.renumber_modeAfter, hstub]
    exact .complete hc hk
  | @declare f sts hc hk =>
    have hstub : ((f { line := n }).withCode line).renumber g = (f { line := g n }).withCode line := by
      rw [show ({ line := g n } : Stub) = Stub.renumber g { line := n } from rfl,
        ← LineShape.renumber_complete g hc]
      rfl
    simp only [Scanner.renumber, List.map_cons, LineShape.renumber_modeAfter, hstub]
    refine .declare hc fun st hst => ?_
    rw [List.head?_map] at hst
    obtain ⟨st', hst', rfl⟩ := Option.map_eq_some_iff.mp hst
    exact hk st' hst'

theorem Fails.renumber (h : Fails file n line s f) :
    Fails file (g n) line (s.renumber g) (f.renumber g) := by
  cases h with
  | early hc hk =>
    refine .early hc fun first hfirst => ?_
    rw [List.getLast?_map] at hfirst
    obtain ⟨first', hfirst', rfl⟩ := Option.map_eq_some_iff.mp hfirst
    exact hk first' hfirst'
  | unrecognized ht hd hc he => exact .unrecognized ht hd hc he

/-- The numbers decide nothing. -/
theorem step_renumber (hs : s.HasCurrent) :
    step file (s.renumber g) (g n) line =
      Outcome.renumber g ((step file s n line).map (Scanner.renumber g)) := by
  cases h : step file s n line with
  | ok s' => exact ((step_ok hs h).renumber g).step_eq
  | error f => exact ((step_error hs h).renumber g).step_eq

/-! ## Lines one after the other -/

/-- Whether a line takes part in a scan. -/
def isSignificant (l : Text) : Bool := !Line.isTrash l

/-- The lines that take part and their numbers, where the first line has number `n`. -/
def significant (n : Nat) (ls : List Text) : List (Text × Nat) :=
  (ls.zipIdx n).filter fun p => isSignificant p.1

theorem significant_cons_of_pos {l : Text} (h : isSignificant l = true) (k : Nat) (ls : List Text) :
    significant k (l :: ls) = (l, k) :: significant (k + 1) ls := by
  rw [significant, List.zipIdx_cons, List.filter_cons_of_pos (p := fun p : Text × Nat => isSignificant p.1) h]
  rfl

theorem significant_cons_of_neg {l : Text} (h : ¬isSignificant l = true) (k : Nat) (ls : List Text) :
    significant k (l :: ls) = significant (k + 1) ls := by
  rw [significant, List.zipIdx_cons, List.filter_cons_of_neg (p := fun p : Text × Nat => isSignificant p.1) h]
  rfl

theorem map_fst_significant (k : Nat) (ls : List Text) :
    (significant k ls).map (·.1) = ls.filter isSignificant := by
  conv_rhs => rw [← List.zipIdx_map_fst k ls, List.filter_map]
  rfl

/-- Lines are scanned as those of them that take part, whose numbers are changed from consecutive ones to
those that they have among all lines. -/
theorem steps_eq_filter {g : Int → Int} {ls : List Text} {m : Int} {k : Nat} (hs : s.HasCurrent)
    (hg : ∀ (i : Nat) p, (significant k ls)[i]? = some p → g (m + i) = p.2) :
    steps file (s.renumber g) k ls =
      Outcome.renumber g ((steps file s m (ls.filter isSignificant)).map (Scanner.renumber g)) := by
  induction ls generalizing s k m with
  | nil => rfl
  | cons l ls ih =>
    by_cases hl : isSignificant l = true
    · rw [significant_cons_of_pos hl] at hg
      have hk : g m = k := by simpa using hg 0 _ rfl
      have hrest : ∀ (i : Nat) p, (significant (k + 1) ls)[i]? = some p → g (m + 1 + i) = p.2 := by
        intro i p hp
        rw [← hg (i + 1) p hp]
        congr 1
        omega
      rw [List.filter_cons_of_pos hl, steps, steps, ← hk, step_renumber g hs]
      cases hstep : step file s m l with
      | error f => rfl
      | ok s' =>
        simp only [Except.map, Outcome.renumber_ok, hk]
        exact ih ((step_ok hs hstep).hasCurrent hs) hrest
    · rw [significant_cons_of_neg hl] at hg
      have ht : Line.isTrash l = true := by simpa [isSignificant] using hl
      rw [List.filter_cons_of_neg hl, steps, step_trash ht]
      exact ih hs hg

/-! ## The end of a file -/

/-- The numbers do not decide whether a file may end, either. Line 0, which a file without declarations is
reported with, must stay. -/
theorem finish_renumber (h0 : g 0 = 0) (s : Scanner) :
    (s.renumber g).finish file =
      Outcome.renumber g ((s.finish file).map (List.map (Stub.renumber g))) := by
  obtain ⟨mode, sts⟩ := s
  cases mode with
  | inDoc k | inCode k => rfl
  | idle =>
    have hrev : (sts.map (Stub.renumber g)).reverse = sts.reverse.map (Stub.renumber g) :=
      List.map_reverse.symm
    simp only [finish, Scanner.renumber, Mode.renumber, hrev]
    cases sts.reverse with
    | nil =>
      have hdefect : (defect .missingClass file 0 []).renumber g = defect .missingClass file (g 0) [] := rfl
      simp only [List.map_nil, Except.map, Outcome.renumber_error, hdefect, h0]
    | cons first rest =>
      have hfind : ((first :: rest).map (Stub.renumber g)).find? (·.kind = .unknown) =
          ((first :: rest).find? (·.kind = .unknown)).map (Stub.renumber g) := List.find?_map ..
      rw [List.map_cons] at hfind
      simp only [List.map_cons, hfind]
      cases (first :: rest).find? (·.kind = .unknown) with
      | some st => rfl
      | none =>
        by_cases hk : first.kind.isClass = true
        · have hk' : (first.renumber g).kind.isClass = true := hk
          simp only [Option.map_none, if_pos hk, if_pos hk']
          rfl
        · have hk' : ¬(first.renumber g).kind.isClass = true := hk
          simp only [Option.map_none, if_neg hk, if_neg hk']
          rfl

end Scanner

end StubDecl
