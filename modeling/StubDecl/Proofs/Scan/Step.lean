import Mathlib.Data.List.Basic
import Mathlib.Tactic.Common
import StubDecl.Stub.Scan

/-!
# What a line does to a scanner

`Scanner.Step` lists the ways in which one line changes a scanner, and `Scanner.Fails` those in which a line
is a defect. `Scanner.step_cases` says that there are no others. All that holds throughout a scan is proved
from this, by `Scanner.steps_induction`.
-/

namespace StubDecl

namespace LineShape

/-- What a line of a declaring shape makes of the stub it completes. -/
def complete? : LineShape → Option (Stub → Stub)
  | .codeStart => some fun st => { st with kind := .variableDecl }
  | .classLine c => some fun st => { st with kind := .classDecl, className := c }
  | .methodLine m ps =>
    some fun st => { st with kind := .methodDecl, methodName := m, params := Parameter.split ps }
  | .variableLine => some fun st => { st with kind := .variableDecl }
  | _ => none

/-- The shapes of declaring lines, with what each makes of a stub. -/
inductive Declares : LineShape → (Stub → Stub) → Prop
  | codeStart : Declares .codeStart fun st => { st with kind := .variableDecl }
  | classLine (c : Text) : Declares (.classLine c) fun st => { st with kind := .classDecl, className := c }
  | methodLine (m ps : Text) : Declares (.methodLine m ps) fun st =>
      { st with kind := .methodDecl, methodName := m, params := Parameter.split ps }
  | variableLine : Declares .variableLine fun st => { st with kind := .variableDecl }

/-- What is open after a declaring line with number `n`. -/
def modeAfter (n : Int) (shape : LineShape) : Scanner.Mode :=
  if shape = .codeStart then .inCode n else .idle

variable {shape : LineShape} {f : Stub → Stub}

theorem declares_of_complete? (h : shape.complete? = some f) : Declares shape f := by
  cases shape <;> simp only [complete?, Option.some.injEq, reduceCtorEq] at h <;> subst h <;> constructor

theorem complete?_frame (h : shape.complete? = some f) (st : Stub) :
    (f st).docLines = st.docLines ∧ (f st).codeLines = st.codeLines ∧ (f st).parent = st.parent ∧
      (f st).line = st.line ∧ (f st).kind ≠ .unknown := by
  cases declares_of_complete? h <;> simp

end LineShape

namespace Scanner

/-- A block is open only if there is a stub that its lines belong to. -/
def HasCurrent (s : Scanner) : Prop := s.mode = .idle ∨ s.stubs ≠ []

/-- The ways in which `line`, which has number `n`, changes a scanner. -/
inductive Step (n : Int) (line : Text) : Scanner → Scanner → Prop
  /-- A line without information is dropped. -/
  | trash {s : Scanner} (ht : Line.isTrash line = true) : Step n line s s
  /-- A line inside a doc block. -/
  | docLine {k : Int} {st : Stub} {sts : List Stub} (ht : Line.isTrash line = false)
      (he : Line.isDocEnd line = false) :
      Step n line ⟨.inDoc k, st :: sts⟩ ⟨.inDoc k, st.withDoc line :: sts⟩
  /-- The last line of a doc block. -/
  | docEnd {k : Int} {st : Stub} {sts : List Stub} (ht : Line.isTrash line = false)
      (he : Line.isDocEnd line = true) :
      Step n line ⟨.inDoc k, st :: sts⟩ ⟨.idle, st.withDoc line :: sts⟩
  /-- A line inside a literal. -/
  | codeLine {k : Int} {st : Stub} {sts : List Stub} (ht : Line.isTrash line = false)
      (he : Line.isCodeEnd line = false) :
      Step n line ⟨.inCode k, st :: sts⟩ ⟨.inCode k, st.withCode line :: sts⟩
  /-- The last line of a literal. -/
  | codeEnd {k : Int} {st : Stub} {sts : List Stub} (ht : Line.isTrash line = false)
      (he : Line.isCodeEnd line = true) :
      Step n line ⟨.inCode k, st :: sts⟩ ⟨.idle, st.withCode line :: sts⟩
  /-- A doc block opens and stays open. -/
  | docStart {sts : List Stub} (hc : Line.classify line = .docStart)
      (ho : Line.isOneLineDoc line = false) :
      Step n line ⟨.idle, sts⟩ ⟨.inDoc n, { line := n, docLines := [line] } :: sts⟩
  /-- A doc block of one line. -/
  | oneLineDoc {sts : List Stub} (hc : Line.classify line = .docStart)
      (ho : Line.isOneLineDoc line = true) :
      Step n line ⟨.idle, sts⟩ ⟨.idle, { line := n, docLines := [line] } :: sts⟩
  /-- The class of the file gets a parent. -/
  | extension {p : Text} {first : Stub} {sts : List Stub} (hc : Line.classify line = .extension p)
      (hk : first.kind = .classDecl) :
      Step n line ⟨.idle, sts ++ [first]⟩ ⟨.idle, sts ++ [{ first with parent := p }]⟩
  /-- A declaration completes the documented stub that waits for one. -/
  | complete {f : Stub → Stub} {st : Stub} {sts : List Stub}
      (hc : (Line.classify line).complete? = some f) (hk : st.kind = .unknown) :
      Step n line ⟨.idle, st :: sts⟩
        ⟨(Line.classify line).modeAfter n, (f st).withCode line :: sts⟩
  /-- A declaration without a doc block. -/
  | declare {f : Stub → Stub} {sts : List Stub} (hc : (Line.classify line).complete? = some f)
      (hk : ∀ st ∈ sts.head?, st.kind ≠ .unknown) :
      Step n line ⟨.idle, sts⟩
        ⟨(Line.classify line).modeAfter n, (f { line := n }).withCode line :: sts⟩

/-- The ways in which `line`, which has number `n`, is no step of a scanner, and what it fails with. -/
inductive Fails (file : Text) (n : Int) (line : Text) : Scanner → Failure → Prop
  /-- A parent where the file does not start with a class. -/
  | early {p : Text} {sts : List Stub} (hc : Line.classify line = .extension p)
      (hk : ∀ first ∈ sts.getLast?, first.kind ≠ .classDecl) :
      Fails file n line ⟨.idle, sts⟩ (defect .extendsBeforeClass file n line)
  /-- A line that neither opens nor declares anything, and gives no parent. -/
  | unrecognized {sts : List Stub} (ht : Line.isTrash line = false)
      (hd : Line.classify line ≠ .docStart) (hc : (Line.classify line).complete? = none)
      (he : ∀ p, Line.classify line ≠ .extension p) :
      Fails file n line ⟨.idle, sts⟩
        ((defect .unrecognizedLine file n line).withHint (unrecognizedHint (Line.classify line)))

variable {file line : Text} {n : Int} {s s' : Scanner} {f : Failure}

/-! ## Lines that are no defects -/

theorem step_trash (ht : Line.isTrash line = true) : step file s n line = .ok s := by
  rw [step, if_pos ht]

theorem step_idle (ht : Line.isTrash line = false) (hm : s.mode = .idle) :
    step file s n line = stepIdle file s n line := by
  rw [step, if_neg (by simp [ht]), hm]

/-- A line whose shape matters is not trash. -/
theorem isTrash_eq_false (h : Line.classify line ≠ .trash) : Line.isTrash line = false := by
  rw [Bool.eq_false_iff]
  intro ht
  exact h (by rw [Line.classify, if_pos ht])

theorem isTrash_of_complete? {f : Stub → Stub} (hc : (Line.classify line).complete? = some f) :
    Line.isTrash line = false := by
  refine isTrash_eq_false fun h => ?_
  rw [h] at hc
  cases hc

/-- A declaring line completes the stub it belongs to, whatever its shape. -/
theorem stepIdle_of_complete {f : Stub → Stub} {sts : List Stub}
    (hc : (Line.classify line).complete? = some f) :
    stepIdle file ⟨.idle, sts⟩ n line =
      .ok { declare n line f ⟨.idle, sts⟩ with mode := (Line.classify line).modeAfter n } := by
  have hidle : ∀ g, declare n line g ⟨.idle, sts⟩ =
      { declare n line g ⟨.idle, sts⟩ with mode := .idle } := by
    intro g
    cases sts with
    | nil => rfl
    | cons st sts =>
      by_cases hk : st.kind = .unknown <;>
        simp [Scanner.declare, forDeclaration, openStub, mapCurrent, hk]
  unfold stepIdle
  generalize Line.classify line = shape at hc
  cases LineShape.declares_of_complete? hc with
  | codeStart => rfl
  | classLine | methodLine | variableLine => exact congrArg _ (hidle _)

/-- Where a declaration goes: to the newest stub if that waits for one, or to a new stub. -/
theorem step_declare {f : Stub → Stub} {sts : List Stub}
    (hc : (Line.classify line).complete? = some f) :
    Step n line ⟨.idle, sts⟩
      { declare n line f ⟨.idle, sts⟩ with mode := (Line.classify line).modeAfter n } := by
  cases sts with
  | nil =>
    simp only [Scanner.declare, forDeclaration, openStub, mapCurrent]
    exact .declare hc (by simp)
  | cons st sts =>
    by_cases hk : st.kind = .unknown
    · simp only [Scanner.declare, forDeclaration, if_pos hk, mapCurrent]
      exact .complete hc hk
    · simp only [Scanner.declare, forDeclaration, if_neg hk, openStub, mapCurrent]
      exact .declare hc (by simpa using hk)

theorem stepIdle_docStart {sts : List Stub} (hc : Line.classify line = .docStart) :
    ∃ s', stepIdle file ⟨.idle, sts⟩ n line = .ok s' ∧ Step n line ⟨.idle, sts⟩ s' := by
  unfold stepIdle
  rw [hc]
  refine ⟨_, rfl, ?_⟩
  by_cases ho : Line.isOneLineDoc line = true
  · simp only [openStub, mapCurrent, if_pos ho]
    exact .oneLineDoc hc ho
  · simp only [openStub, mapCurrent, if_neg ho]
    exact .docStart hc (by simpa using ho)

/-- The parent goes to the oldest stub, which must be a class. -/
theorem extend?_append (p : Text) (m : Mode) (sts : List Stub) (first : Stub) :
    extend? p ⟨m, sts ++ [first]⟩ =
      if first.kind = .classDecl then some ⟨m, sts ++ [{ first with parent := p }]⟩ else none := by
  simp [extend?, StubKind.isClass]

theorem stepIdle_extension {p : Text} {sts : List Stub} {first : Stub}
    (hc : Line.classify line = .extension p) (hk : first.kind = .classDecl) :
    stepIdle file ⟨.idle, sts ++ [first]⟩ n line =
      .ok ⟨.idle, sts ++ [{ first with parent := p }]⟩ := by
  unfold stepIdle
  rw [hc]
  simp only [extend?_append, if_pos hk]

/-! ## Lines that are defects -/

theorem classify_ne_trash (ht : Line.isTrash line = false) : Line.classify line ≠ .trash := by
  rw [Line.classify, if_neg (by simp [ht])]
  repeat' split
  all_goals nofun

theorem Fails.step_eq (h : Fails file n line s f) : step file s n line = .error f := by
  cases h with
  | @early p sts hc hk =>
    rw [step_idle (isTrash_eq_false (by simp [hc])) rfl, stepIdle, hc]
    obtain rfl | ⟨rest, first, rfl⟩ := sts.eq_nil_or_concat'
    · rfl
    · simp only [extend?_append, if_neg (hk first (by simp))]
  | unrecognized ht hd hc he =>
    rw [step_idle ht rfl, stepIdle]
    have hne := classify_ne_trash ht
    generalize Line.classify line = shape at hd hc he hne
    cases shape with
    | unknown | docEnd | docTag | codeEnd => rfl
    | trash => exact absurd rfl hne
    | docStart => exact absurd rfl hd
    | extension p => exact absurd rfl (he p)
    | codeStart | classLine | methodLine | variableLine => cases hc

/-- Where a line fails: nothing is open, and the line neither opens nor declares anything. If it gives a
parent, the file does not start with a class. -/
theorem Fails.idle (h : Fails file n line s f) :
    Line.isTrash line = false ∧ s.mode = .idle ∧ Line.classify line ≠ .docStart ∧
      (Line.classify line).complete? = none ∧
      ∀ p, Line.classify line = .extension p → ∀ first ∈ s.stubs.getLast?, first.kind ≠ .classDecl := by
  cases h with
  | early hc hk =>
    have hshape : Line.classify line ≠ .trash ∧ Line.classify line ≠ .docStart ∧
        (Line.classify line).complete? = none := by
      rw [hc]
      exact ⟨nofun, nofun, rfl⟩
    exact ⟨isTrash_eq_false hshape.1, rfl, hshape.2.1, hshape.2.2, fun _ _ => hk⟩
  | unrecognized ht hd hc he => exact ⟨ht, rfl, hd, hc, fun p hp => absurd hp (he p)⟩

/-- A line that is no step is what the defect is about. -/
theorem Fails.cause_eq (h : Fails file n line s f) :
    ∃ kind, f.cause = .defect ⟨kind, file, n, line⟩ ∧
      (kind = .unrecognizedLine ∨ kind = .extendsBeforeClass) := by
  cases h with
  | early => exact ⟨_, rfl, .inr rfl⟩
  | unrecognized => exact ⟨_, rfl, .inl rfl⟩

/-! ## All lines -/

/-- A line in the idle mode: a step, or a defect. -/
theorem stepIdle_cases (file : Text) {n : Int} {line : Text} (ht : Line.isTrash line = false)
    (sts : List Stub) :
    (∃ s', stepIdle file ⟨.idle, sts⟩ n line = .ok s' ∧ Step n line ⟨.idle, sts⟩ s') ∨
      ∃ f, Fails file n line ⟨.idle, sts⟩ f := by
  cases hf : (Line.classify line).complete? with
  | some f => exact .inl ⟨_, stepIdle_of_complete hf, step_declare hf⟩
  | none =>
    by_cases hd : Line.classify line = .docStart
    · exact .inl (stepIdle_docStart hd)
    by_cases he : ∃ p, Line.classify line = .extension p
    · obtain ⟨p, he⟩ := he
      by_cases hk : ∃ first ∈ sts.getLast?, first.kind = .classDecl
      · obtain ⟨first, hlast, hk⟩ := hk
        obtain ⟨rest, rfl⟩ := List.getLast?_eq_some_iff.mp hlast
        exact .inl ⟨_, stepIdle_extension he hk, .extension he hk⟩
      · exact .inr ⟨_, .early he fun first hlast hkind => hk ⟨first, hlast, hkind⟩⟩
    · exact .inr ⟨_, .unrecognized ht hd hf (not_exists.mp he)⟩

/-- A line is a step, or it is a defect. -/
theorem step_cases (file : Text) (n : Int) (line : Text) (hs : s.HasCurrent) :
    (∃ s', step file s n line = .ok s' ∧ Step n line s s') ∨
      ∃ f, step file s n line = .error f ∧ Fails file n line s f := by
  cases ht : Line.isTrash line with
  | true => exact .inl ⟨s, step_trash ht, .trash ht⟩
  | false =>
    obtain ⟨mode, sts⟩ := s
    cases mode with
    | idle =>
      obtain h | ⟨f, hfails⟩ := stepIdle_cases file (n := n) ht sts
      · exact .inl (by rwa [step_idle ht rfl])
      · exact .inr ⟨f, hfails.step_eq, hfails⟩
    | inDoc k =>
      obtain ⟨st, sts, rfl⟩ := List.exists_cons_of_ne_nil (hs.resolve_left nofun)
      refine .inl ⟨_, by rw [step, if_neg (by simp [ht])], ?_⟩
      cases he : Line.isDocEnd line with
      | true => exact .docEnd ht he
      | false => exact .docLine ht he
    | inCode k =>
      obtain ⟨st, sts, rfl⟩ := List.exists_cons_of_ne_nil (hs.resolve_left nofun)
      refine .inl ⟨_, by rw [step, if_neg (by simp [ht])], ?_⟩
      cases he : Line.isCodeEnd line with
      | true => exact .codeEnd ht he
      | false => exact .codeLine ht he

/-- A line that is no defect takes one of the steps. -/
theorem step_ok (hs : s.HasCurrent) (h : step file s n line = .ok s') : Step n line s s' := by
  obtain ⟨s₁, h₁, hstep⟩ | ⟨f, hf, -⟩ := step_cases file n line hs
  · rw [h] at h₁
    cases h₁
    exact hstep
  · rw [h] at hf
    cases hf

/-- A line that is a defect fails in one of the ways. -/
theorem step_error (hs : s.HasCurrent) (h : step file s n line = .error f) : Fails file n line s f := by
  obtain ⟨s₁, h₁, -⟩ | ⟨f₁, h₁, hfails⟩ := step_cases file n line hs
  · rw [h] at h₁
    cases h₁
  · rw [h] at h₁
    cases h₁
    exact hfails

/-! ## Whole scans -/

theorem Step.hasCurrent (h : Step n line s s') (hs : s.HasCurrent) : s'.HasCurrent := by
  cases h with
  | trash => exact hs
  | docEnd | codeEnd | oneLineDoc | extension => exact .inl rfl
  | docLine | codeLine | docStart | complete | declare => exact .inr (List.cons_ne_nil _ _)

/-- A step adds a stub with its own number at most, and does so if there is none yet. -/
theorem Step.numbers (h : Step n line s s') :
    (s'.stubs.map (·.line) = s.stubs.map (·.line) ∧ (Line.isTrash line = true ∨ s.stubs ≠ [])) ∨
      (s'.stubs.map (·.line) = n :: s.stubs.map (·.line) ∧ Line.isTrash line = false) := by
  cases h with
  | trash ht => exact .inl ⟨rfl, .inl ht⟩
  | docLine | docEnd | codeLine | codeEnd => exact .inl ⟨rfl, .inr (List.cons_ne_nil _ _)⟩
  | docStart hc | oneLineDoc hc => exact .inr ⟨rfl, isTrash_eq_false (by simp [hc])⟩
  | extension => exact .inl ⟨by simp, .inr (by simp)⟩
  | complete hc =>
    refine .inl ⟨?_, .inr (List.cons_ne_nil _ _)⟩
    simp only [List.map_cons, Stub.withCode_line, (LineShape.complete?_frame hc _).2.2.2.1]
  | declare hc =>
    refine .inr ⟨?_, isTrash_of_complete? hc⟩
    simp only [List.map_cons, Stub.withCode_line, (LineShape.complete?_frame hc _).2.2.2.1]

/-- What holds at the start and is kept by every step holds after any lines that are no defects. The
property may speak about the lines that have been read. -/
theorem steps_induction {P : List Text → Scanner → Prop} (h₀ : P [] {})
    (hstep : ∀ read line s s', P read s → Step (read.length + 1) line s s' → P (read ++ [line]) s')
    {lines : List Text} (h : steps file {} 1 lines = .ok s) : P lines s := by
  -- generalised over the lines that have been read before
  suffices hgen : ∀ read t, t.HasCurrent → P read t →
      steps file t (read.length + 1) lines = .ok s → P (read ++ lines) s by
    simpa using hgen [] {} (.inl rfl) h₀ (by simpa using h)
  clear h
  intro read t ht hp h
  induction lines generalizing read t with
  | nil =>
    cases h
    simpa using hp
  | cons line lines ih =>
    rw [steps] at h
    split at h
    · next t' ht' =>
      have hs := step_ok ht ht'
      have := ih (read ++ [line]) t' (hs.hasCurrent ht) (hstep _ _ _ _ hp hs) (by simpa using h)
      simpa using this
    · cases h

/-! ## The end of a file -/

/-- The stubs come out in source order. A file may end where nothing is open, every stub is declared
and the first one is a class. -/
theorem finish_eq_ok_iff {stubs : List Stub} : s.finish file = .ok stubs ↔
    s.mode = .idle ∧ stubs = s.stubs.reverse ∧ (∀ st ∈ stubs, st.kind ≠ .unknown) ∧
      ∃ first rest, stubs = first :: rest ∧ first.kind = .classDecl := by
  obtain ⟨mode, sts⟩ := s
  cases mode with
  | inDoc n | inCode n => simp [finish]
  | idle =>
    simp only [finish, true_and]
    cases hr : sts.reverse with
    | nil =>
      simp only [reduceCtorEq, false_iff, not_and, not_exists]
      rintro rfl - first rest h
      cases h
    | cons first rest =>
      dsimp only
      split
      · next st hf =>
        have hu : st.kind = .unknown := by simpa using List.find?_some hf
        simp only [reduceCtorEq, false_iff]
        rintro ⟨rfl, hall, -⟩
        exact hall st (List.mem_of_find?_eq_some hf) hu
      · next hf =>
        have hall : ∀ st ∈ first :: rest, st.kind ≠ .unknown := by simpa using hf
        by_cases hk : first.kind = .classDecl
        · simp only [StubKind.isClass, hk, beq_self_eq_true, if_true, Except.ok.injEq]
          constructor
          · rintro rfl
            exact ⟨rfl, hall, first, rest, rfl, hk⟩
          · rintro ⟨rfl, -⟩
            rfl
        · have hc : first.kind.isClass = false := by simpa [StubKind.isClass] using hk
          simp only [hc, Bool.false_eq_true, if_false, reduceCtorEq, false_iff]
          rintro ⟨rfl, -, first', rest', h, hk'⟩
          cases h
          exact hk hk'

/-- A scan that succeeds is a run of steps to a state where the file may end. -/
theorem scan_eq_ok_iff {content : Text} {stubs : List Stub} : scan file content = .ok stubs ↔
    ∃ s, steps file {} 1 (sourceLines content) = .ok s ∧ s.finish file = .ok stubs := by
  unfold scan
  cases steps file {} 1 (sourceLines content) with
  | ok s => simp
  | error f => simp

end Scanner

end StubDecl
