import Mathlib.Data.List.Range
import StubDecl.Proofs.Scan.WellFormed
import StubDecl.Stub.LinkedScan

/-!
# The references of a scan

The addresses that a linked scanner lists are all that there are, in order, and its reference is to the last
one (`LinkedScanner.link`). From this it does what `Scanner` does, line by line
(`LinkedScanner.steps_eq`): it never follows a reference to nowhere, and it has the same defects. What
`Scanner.Sound` says of a scan is therefore said of the stub behind the reference
(`LinkedScanner.kept_of_steps`).
-/

namespace StubDecl.LinkedScanner

/-! ## Linked stubs -/

/-- The linked scanner with the given stubs, the newest first: their addresses are listed in order, and the
reference is to the last one. -/
def link (phase : Phase) (openLine : Int) (sts : List Stub) : LinkedScanner where
  phase := phase
  cells := sts.reverse
  order := List.range sts.length
  current := (List.range sts.length).getLast?
  openLine := openLine

variable {file line : Text} {n k : Int} {phase : Phase} {st : Stub} {sts : List Stub}

/-- All stubs are listed. -/
theorem filterMap_cells (sts : List Stub) :
    (List.range sts.length).filterMap (fun a => sts.reverse[a]?) = sts.reverse := by
  induction sts with
  | nil => rfl
  | cons st sts ih =>
    have holder : ∀ a ∈ List.range sts.length, (st :: sts).reverse[a]? = sts.reverse[a]? := by
      intro a ha
      rw [List.reverse_cons, List.getElem?_append_left (by simpa using ha)]
    have hnewest : (st :: sts).reverse[sts.length]? = some st := by simp
    rw [List.length_cons, List.range_succ, List.filterMap_append, List.filterMap_congr holder, ih,
      List.filterMap_cons_some hnewest, List.filterMap_nil, List.reverse_cons]

@[simp] theorem view_link : (link phase k sts).view = ⟨phase.mode k, sts⟩ :=
  congrArg _ ((congrArg List.reverse (filterMap_cells sts)).trans (List.reverse_reverse sts))

@[simp] theorem link_phase : (link phase k sts).phase = phase := rfl

@[simp] theorem link_current_cons : (link phase k (st :: sts)).current = some sts.length := by
  simp [link, List.range_succ]

theorem deref_link {a : Nat} (h : a < sts.reverse.length) :
    (link phase k sts).deref (some a) = .ok sts.reverse[a] := by
  simp only [deref, link, Option.bind_some, List.getElem?_eq_getElem h]

@[simp] theorem deref_link_cons : (link phase k (st :: sts)).deref (some sts.length) = .ok st :=
  (deref_link (by simp)).trans (by simp)

@[simp] theorem update_link_cons (f : Stub → Stub) :
    (link phase k (st :: sts)).update (some sts.length) f = .ok (link phase k (f st :: sts)) := by
  have hmodify : (sts.reverse ++ [st]).modify sts.length f = sts.reverse ++ [f st] := by
    simp [List.modify_eq_take_cons_drop]
  simp [update, link, hmodify]

@[simp] theorem openStub_link (n : Int) :
    (link phase k sts).openStub n = (link phase k ({ line := n } :: sts), sts.length) := by
  simp [openStub, link, List.range_succ]

/-! ## One line -/

variable {f : Stub → Stub} {s' : Scanner}

theorem declare_of_unknown (h : st.kind = .unknown) :
    (link phase k (st :: sts)).declare n line f =
      .ok (link phase k ((f st).withCode line :: sts)) := by
  have hkept : (link phase k (st :: sts)).forDeclaration n =
      .ok (link phase k (st :: sts), sts.length) := by
    rw [forDeclaration, link_current_cons]
    simp only [deref_link_cons, bind, Except.bind, pure, Except.pure, if_pos h]
  rw [declare, hkept]
  exact update_link_cons _

theorem declare_of_declared (h : ∀ st ∈ sts.head?, st.kind ≠ .unknown) :
    (link phase k sts).declare n line f =
      .ok (link phase k ((f { line := n }).withCode line :: sts)) := by
  have hopened : (link phase k sts).forDeclaration n =
      .ok (link phase k ({ line := n } :: sts), sts.length) := by
    rw [← openStub_link]
    cases sts with
    | nil => rfl
    | cons st sts =>
      rw [forDeclaration, link_current_cons]
      simp only [deref_link_cons, bind, Except.bind, pure, Except.pure, if_neg (h st rfl)]
  rw [declare, hopened]
  exact update_link_cons _

/-- Whether a declaring line opens a literal or not is all that is left of its shape. -/
theorem stepIdle_of_complete (hf : (Line.classify line).complete? = some f) (s : LinkedScanner) :
    stepIdle file s n line = do
      let s ← s.declare n line f
      return if Line.classify line = .codeStart then s.enter .inCode n else s := by
  unfold stepIdle
  generalize Line.classify line = shape at hf
  cases LineShape.declares_of_complete? hf with
  | codeStart => rfl
  | classLine | methodLine | variableLine => simp only [reduceCtorEq, if_false, bind_pure]

/-- The first stub is the oldest one. -/
theorem extend_link {first : Stub} {p : Text} :
    (link phase k (sts ++ [first])).extend file n line p =
      if first.kind = .classDecl then .ok (link phase k (sts ++ [{ first with parent := p }]))
      else .error (.defect (Scanner.defect .extendsBeforeClass file n line)) := by
  have horder : (link phase k (sts ++ [first])).order = 0 :: (List.range sts.length).map (· + 1) := by
    rw [link, List.length_append, List.length_singleton, List.range_succ_eq_map]
  have hfirst : (link phase k (sts ++ [first])).deref (some 0) = .ok first := by
    simp [deref, link]
  have hupdate : (link phase k (sts ++ [first])).update (some 0) (fun st => { st with parent := p }) =
      .ok (link phase k (sts ++ [{ first with parent := p }])) := by
    simp [update, link]
  rw [extend, horder]
  simp only [hfirst, hupdate, bind, Except.bind, StubKind.isClass, beq_iff_eq]

theorem step_inDoc (ht : Line.isTrash line = false) :
    step file (link .inDoc k (st :: sts)) n line =
      .ok (link (if Line.isDocEnd line then .idle else .inDoc) k (st.withDoc line :: sts)) := by
  rw [step, if_neg (by simp [ht])]
  simp only [link_phase, link_current_cons, update_link_cons]
  cases Line.isDocEnd line <;> rfl

theorem step_inCode (ht : Line.isTrash line = false) :
    step file (link .inCode k (st :: sts)) n line =
      .ok (link (if Line.isCodeEnd line then .idle else .inCode) k (st.withCode line :: sts)) := by
  rw [step, if_neg (by simp [ht])]
  simp only [link_phase, link_current_cons, update_link_cons]
  cases Line.isCodeEnd line <;> rfl

theorem step_idle (ht : Line.isTrash line = false) :
    step file (link .idle k sts) n line = stepIdle file (link .idle k sts) n line := by
  rw [step, if_neg (by simp [ht]), link_phase]

theorem step_docStart (hc : Line.classify line = .docStart) :
    step file (link .idle k sts) n line =
      .ok (if Line.isOneLineDoc line then link .idle k ({ line := n, docLines := [line] } :: sts)
        else link .inDoc n ({ line := n, docLines := [line] } :: sts)) := by
  rw [step_idle (Scanner.isTrash_eq_false (by simp [hc])), stepIdle, hc]
  simp only [openStub_link, update_link_cons, bind, Except.bind, pure, Except.pure, Stub.withDoc,
    List.nil_append]
  rfl

/-- A declaring line, after what it makes of the stubs. -/
theorem step_of_declare (hf : (Line.classify line).complete? = some f) {sts' : List Stub}
    (h : (link .idle k sts).declare n line f = .ok (link .idle k sts')) :
    ∃ phase' k', step file (link .idle k sts) n line = .ok (link phase' k' sts') ∧
      phase'.mode k' = (Line.classify line).modeAfter n := by
  have hstep : step file (link .idle k sts) n line = _ := step_idle (Scanner.isTrash_of_complete? hf)
  rw [stepIdle_of_complete hf, h] at hstep
  by_cases hopen : Line.classify line = .codeStart
  · simp only [if_pos hopen] at hstep
    rw [LineShape.modeAfter, if_pos hopen]
    exact ⟨.inCode, n, hstep, rfl⟩
  · simp only [if_neg hopen] at hstep
    rw [LineShape.modeAfter, if_neg hopen]
    exact ⟨.idle, k, hstep, rfl⟩

/-- **One line, with references and without.** Where there is a step, the linked scanner takes it too. -/
theorem step_link (file : Text) {mode : Scanner.Mode} (hmode : phase.mode k = mode)
    (h : Scanner.Step n line ⟨mode, sts⟩ s') :
    ∃ phase' k', step file (link phase k sts) n line = .ok (link phase' k' s'.stubs) ∧
      phase'.mode k' = s'.mode := by
  cases h with
  | trash ht => exact ⟨phase, k, by rw [step, if_pos ht], hmode⟩
  | docLine ht he =>
    cases phase <;> cases hmode
    exact ⟨.inDoc, k, by rw [step_inDoc ht, if_neg (by simp [he])], rfl⟩
  | docEnd ht he =>
    cases phase <;> cases hmode
    exact ⟨.idle, k, by rw [step_inDoc ht, if_pos he], rfl⟩
  | codeLine ht he =>
    cases phase <;> cases hmode
    exact ⟨.inCode, k, by rw [step_inCode ht, if_neg (by simp [he])], rfl⟩
  | codeEnd ht he =>
    cases phase <;> cases hmode
    exact ⟨.idle, k, by rw [step_inCode ht, if_pos he], rfl⟩
  | docStart hc ho =>
    cases phase <;> cases hmode
    exact ⟨.inDoc, n, by rw [step_docStart hc, if_neg (by simp [ho])], rfl⟩
  | oneLineDoc hc ho =>
    cases phase <;> cases hmode
    exact ⟨.idle, k, by rw [step_docStart hc, if_pos ho], rfl⟩
  | extension hc hk =>
    cases phase <;> cases hmode
    refine ⟨.idle, k, ?_, rfl⟩
    rw [step_idle (Scanner.isTrash_eq_false (by simp [hc])), stepIdle, hc]
    exact extend_link.trans (if_pos hk)
  | complete hf hk =>
    cases phase <;> cases hmode
    exact step_of_declare hf (declare_of_unknown hk)
  | declare hf hk =>
    cases phase <;> cases hmode
    exact step_of_declare hf (declare_of_declared hk)

/-- Where there is a defect, the linked scanner has it too. -/
theorem step_link_of_fails {e : Failure} {mode : Scanner.Mode} (hmode : phase.mode k = mode)
    (h : Scanner.Fails file n line ⟨mode, sts⟩ e) :
    step file (link phase k sts) n line = .error (.defect e) := by
  cases h with
  | early hc hk =>
    cases phase <;> cases hmode
    rw [step_idle (Scanner.isTrash_eq_false (by simp [hc])), stepIdle, hc]
    obtain rfl | ⟨rest, first, rfl⟩ := sts.eq_nil_or_concat'
    · rfl
    · exact extend_link.trans (if_neg (hk first (by simp)))
  | unrecognized ht hd hc he =>
    cases phase <;> cases hmode
    rw [step_idle ht, stepIdle]
    have hne := Scanner.classify_ne_trash ht
    generalize Line.classify line = shape at hd hc he hne
    cases shape with
    | unknown | docEnd | docTag | codeEnd => rfl
    | trash => exact absurd rfl hne
    | docStart => exact absurd rfl hd
    | extension p => exact absurd rfl (he p)
    | codeStart | classLine | methodLine | variableLine => cases hc

/-- A linked scanner takes a step or has a defect, like the scanner it is a view of. -/
theorem step_link_cases (hs : Scanner.HasCurrent ⟨phase.mode k, sts⟩) (file : Text) (n : Int)
    (line : Text) :
    (∃ phase' k' sts', step file (link phase k sts) n line = .ok (link phase' k' sts') ∧
        Scanner.Step n line ⟨phase.mode k, sts⟩ ⟨phase'.mode k', sts'⟩ ∧
        Scanner.step file ⟨phase.mode k, sts⟩ n line = .ok ⟨phase'.mode k', sts'⟩) ∨
      ∃ e, step file (link phase k sts) n line = .error (.defect e) ∧
        Scanner.step file ⟨phase.mode k, sts⟩ n line = .error e := by
  obtain ⟨⟨mode', sts'⟩, hok, hstep⟩ | ⟨e, herror, hfails⟩ := Scanner.step_cases file n line hs
  · obtain ⟨phase', k', hlink, rfl⟩ := step_link file rfl hstep
    exact .inl ⟨phase', k', sts', hlink, hstep, hok⟩
  · exact .inr ⟨e, step_link_of_fails rfl hfails, herror⟩

/-! ## All lines -/

/-- The lines of a file, with references and without. -/
theorem steps_link_cases (hs : Scanner.HasCurrent ⟨phase.mode k, sts⟩) (file : Text) (n : Int)
    (ls : List Text) :
    (∃ phase' k' sts', steps file (link phase k sts) n ls = .ok (link phase' k' sts') ∧
        Scanner.steps file ⟨phase.mode k, sts⟩ n ls = .ok ⟨phase'.mode k', sts'⟩) ∨
      ∃ e, steps file (link phase k sts) n ls = .error (.defect e) ∧
        Scanner.steps file ⟨phase.mode k, sts⟩ n ls = .error e := by
  induction ls generalizing phase k sts n with
  | nil => exact .inl ⟨phase, k, sts, rfl, rfl⟩
  | cons line ls ih =>
    rw [steps, Scanner.steps]
    obtain ⟨phase', k', sts', hlink, hstep, hok⟩ | ⟨e, hlink, herror⟩ := step_link_cases hs file n line
    · rw [hlink, hok]
      exact ih (hstep.hasCurrent hs) (n + 1)
    · rw [hlink, herror]
      exact .inr ⟨e, rfl, rfl⟩

theorem hasCurrent_start : Scanner.HasCurrent ⟨Phase.mode 0 .idle, []⟩ := .inl rfl

/-- **A linked scanner does what the scanner does**, over any lines: it comes to the same stubs with the same
block open, or has the same defect. -/
theorem steps_eq (file : Text) (n : Int) (ls : List Text) :
    (steps file {} n ls).map view = (Scanner.steps file {} n ls).mapError Fault.defect := by
  obtain ⟨phase, k, sts, hlink, hok⟩ | ⟨e, hlink, herror⟩ :=
    steps_link_cases hasCurrent_start file n ls
  · exact (congrArg (Except.map view) hlink).trans
      ((congrArg Except.ok view_link).trans (congrArg (Except.mapError Fault.defect) hok).symm)
  · exact (congrArg (Except.map view) hlink).trans
      (congrArg (Except.mapError Fault.defect) herror).symm

/-- What holds of a linked scanner between two lines: the reference is to the last stub, if there are any, and
leads to a stub that fits what is open. -/
structure Kept (s : LinkedScanner) : Prop where
  none_iff : s.current = none ↔ s.order = []
  last : s.current = s.order.getLast?
  inDoc : s.phase = .inDoc → ∃ st, s.deref s.current = .ok st ∧ st.kind = .unknown ∧
    st.docLines ≠ [] ∧ st.codeLines = [] ∧ s.openLine = st.line
  inCode : s.phase = .inCode → ∃ st, s.deref s.current = .ok st ∧ st.kind = .variableDecl ∧
    st.codeLines ≠ [] ∧ st.line ≤ s.openLine
  idle : s.phase = .idle → ∀ a ∈ s.order, ∃ st, s.deref (some a) = .ok st ∧
    (st.kind = .unknown → st.codeLines = [])

/-- A sound scan keeps the reference where it belongs. -/
theorem kept_link (h : Scanner.Sound n ⟨phase.mode k, sts⟩) : (link phase k sts).Kept where
  none_iff := by simp [link, List.getLast?_range]
  last := rfl
  inDoc := by
    rintro rfl
    obtain _ | ⟨hst, hdoc, hk, -⟩ := h.stages
    exact ⟨_, by rw [link_current_cons, deref_link_cons], hst.kind, hdoc, hst.code, hk⟩
  inCode := by
    rintro rfl
    obtain _ | _ | ⟨hst, hk, -⟩ := h.stages
    obtain ⟨l, ls, hcode, -⟩ := hst.opened
    exact ⟨_, by rw [link_current_cons, deref_link_cons], hst.kind, by rw [hcode]; nofun, hk⟩
  idle := by
    rintro rfl a ha
    obtain ⟨hsts⟩ := h.stages
    have hlt : a < sts.reverse.length := by simpa [link] using ha
    refine ⟨_, deref_link hlt, fun hk => ?_⟩
    exact ((hsts _ (List.mem_reverse.mp (List.getElem_mem hlt))).undeclared hk).code

/-- **The reference of a scan never leads nowhere.** After any lines without a defect there is a reference just if
there are stubs, and it is to the last of them. While a doc block is open, it is to its stub, which is
undeclared and has documentation but no code; while a literal is open, to a variable with code; the block was
opened in the line of that stub, or behind it. While nothing is open, undeclared stubs have no code. So no
further line follows a reference to nowhere, and the scanner without references is in the same state. -/
theorem kept_of_steps {ls : List Text} {s : LinkedScanner} (h : steps file {} 1 ls = .ok s) :
    s.Kept ∧ (∀ n line, step file s n line ≠ .error .dangling) ∧
      Scanner.steps file {} 1 ls = .ok s.view := by
  obtain ⟨phase, k, sts, hlink, hok⟩ | ⟨e, hlink, -⟩ :=
    steps_link_cases hasCurrent_start file 1 ls
  · obtain rfl : link phase k sts = s := Except.ok.inj (hlink.symm.trans h)
    have hsound := Scanner.sound_of_steps hok
    refine ⟨kept_link hsound, fun n line => ?_, hok.trans (congrArg _ view_link.symm)⟩
    obtain ⟨_, _, _, hstep, -⟩ | ⟨e, hstep, -⟩ := step_link_cases hsound.hasCurrent file n line <;>
      · rw [hstep]
        nofun
  · cases hlink.symm.trans h

/-- A class, and a literal that is open. -/
def openLevels : List Text := ["function Pump() \x7b\x7d", "", "levels = \x7b", "  low: 1"]

theorem kept_of_steps_openLevels :
    ∃ s, steps "A.js" {} 1 openLevels = .ok s ∧ s.phase = .inCode ∧ s.openLine = 3 ∧
      s.order = [0, 1] ∧ s.current = some 1 ∧ s.Kept ∧
      (∀ n line, step "A.js" s n line ≠ .error .dangling) ∧
      Scanner.steps "A.js" {} 1 openLevels = .ok s.view := by
  have h : steps "A.js" {} 1 openLevels = .ok _ := rfl
  exact ⟨_, h, rfl, rfl, rfl, rfl, kept_of_steps h⟩

end StubDecl.LinkedScanner
