import StubDecl.Proofs.Line.Shape
import StubDecl.Proofs.Scan.Step

/-!
# Well-formed stubs

A stub is changed while the scan goes on: it is opened by a doc block, declared by a line that may come
much later, and a literal goes on behind that line. `Scanner.Sound` says how far the stubs are at any time:
those that nothing is open for are undeclared or well-formed, and the newest one takes the lines of what is
open. Every line keeps this (`Scanner.Sound.step`), so that all stubs are well-formed when a scan succeeds
(`Scanner.wellFormed_of_scan`).
-/

namespace StubDecl

/-! ## Stages of a stub -/

namespace Stub

/-- The first line of the doc block, if there is one, opens a doc block. -/
def Documented (st : Stub) : Prop := ∀ l ∈ st.docLines.head?, Line.isDocStart l = true

/-- A stub that waits for its declaration: all that is known of it is its doc block. -/
structure Undeclared (st : Stub) : Prop where
  doc : st.Documented
  kind : st.kind = .unknown
  code : st.codeLines = []
  className : st.className = []
  methodName : st.methodName = []
  params : st.params = []

/-- A variable whose literal has been opened and not closed. -/
structure InLiteral (st : Stub) : Prop where
  doc : st.Documented
  kind : st.kind = .variableDecl
  opened : ∃ l ls, st.codeLines = l :: ls ∧ Line.isCodeStart l = true
  unclosed : ∀ l ∈ st.codeLines, Line.isCodeEnd l = false
  className : st.className = []
  methodName : st.methodName = []
  params : st.params = []

/-- The code of a literal: its first line opens it, and the last line is the only one that closes it. -/
def IsLiteral (code : List Text) : Prop :=
  ∃ l ls last, code = l :: ls ++ [last] ∧ Line.isCodeStart l = true ∧ Line.isCodeEnd last = true ∧
    ∀ x ∈ l :: ls, Line.isCodeEnd x = false

/-- A stub as declarations are written from it. It has a kind and code, and its doc block starts as one. Its
names are those of its kind: a class has its name, a method its name and its parameters. Its code is one
line, but for a literal. -/
structure WellFormed (st : Stub) : Prop where
  doc : st.Documented
  kind : st.kind = .classDecl ∨ st.kind = .methodDecl ∨ st.kind = .variableDecl
  code : st.codeLines ≠ []
  ofClass : st.kind = .classDecl →
    IsWord st.className ∧ st.codeLines.length = 1 ∧ st.methodName = [] ∧ st.params = []
  ofMethod : st.kind = .methodDecl →
    IsWord st.methodName ∧ st.codeLines.length = 1 ∧ st.className = [] ∧
      ∀ p ∈ st.params, p ≠ [] ∧ p.trim = p ∧ 0x2c ∉ p
  ofVariable : st.kind = .variableDecl →
    st.className = [] ∧ st.methodName = [] ∧ st.params = [] ∧
      (st.codeLines.length = 1 ∨ IsLiteral st.codeLines)

variable {st : Stub} {l : Text} {f : Stub → Stub}

theorem Documented.withDoc (h : st.Documented) (hne : st.docLines ≠ []) (l : Text) :
    (st.withDoc l).Documented := by
  rw [Documented, withDoc_docLines, List.head?_append_of_ne_nil _ hne]
  exact h

theorem Undeclared.withDoc (h : st.Undeclared) (hne : st.docLines ≠ []) (l : Text) :
    (st.withDoc l).Undeclared :=
  { h with doc := h.doc.withDoc hne l }

/-- A doc block has been opened. -/
theorem undeclared_docStart (h : Line.classify l = .docStart) (n : Int) :
    Undeclared { line := n, docLines := [l] } where
  doc := by
    rintro _ ⟨⟩
    exact Line.isDocStart_of_classify h
  kind := rfl
  code := rfl
  className := rfl
  methodName := rfl
  params := rfl

/-- Nothing is known of a new stub. -/
theorem undeclared_new (n : Int) : Undeclared { line := n } := by
  constructor <;> first | rfl | nofun

/-- A line that opens a literal leaves it open. -/
theorem Undeclared.inLiteral (h : st.Undeclared) (hf : (Line.classify l).complete? = some f)
    (hopen : Line.classify l = .codeStart) : ((f st).withCode l).InLiteral := by
  have hstart := Line.isCodeStart_of_classify hopen
  rw [hopen] at hf
  cases hf
  have hcode : st.codeLines ++ [l] = [l] := by rw [h.code, List.nil_append]
  refine ⟨h.doc, rfl, ⟨l, [], hcode, hstart⟩, ?_, h.className, h.methodName, h.params⟩
  rw [withCode_codeLines, hcode]
  exact List.forall_mem_singleton.mpr (Line.isCodeEnd_of_isCodeStart hstart)

/-- Any other declaring line is all the code of its stub. -/
theorem Undeclared.wellFormed (h : st.Undeclared) (hf : (Line.classify l).complete? = some f)
    (hopen : Line.classify l ≠ .codeStart) : ((f st).withCode l).WellFormed := by
  have hcode : ((f st).withCode l).codeLines = [l] := by
    rw [withCode_codeLines, (LineShape.complete?_frame hf st).2.1, h.code, List.nil_append]
  have hdoc : ((f st).withCode l).Documented := by
    rw [Documented, withCode_docLines, (LineShape.complete?_frame hf st).1]
    exact h.doc
  have hone : ((f st).withCode l).codeLines.length = 1 := by rw [hcode]; rfl
  have hne : ((f st).withCode l).codeLines ≠ [] := by rw [hcode]; nofun
  generalize hshape : Line.classify l = shape at hf hopen
  cases LineShape.declares_of_complete? hf with
  | codeStart => exact absurd rfl hopen
  | classLine c =>
    have hc : IsWord c := Line.isWord_of_class? (Line.class?_of_classify hshape)
    exact ⟨hdoc, .inl rfl, hne, fun _ => ⟨hc, hone, h.methodName, h.params⟩, nofun, nofun⟩
  | methodLine m ps =>
    obtain ⟨-, -, -, -, -, -, hm, -⟩ := Line.parts_of_method? (Line.method?_of_classify hshape)
    exact ⟨hdoc, .inr (.inl rfl), hne, nofun,
      fun _ => ⟨hm, hone, h.className, fun _ => Parameter.of_mem_split⟩, nofun⟩
  | variableLine =>
    exact ⟨hdoc, .inr (.inr rfl), hne, nofun, nofun,
      fun _ => ⟨h.className, h.methodName, h.params, .inl hone⟩⟩

/-- A line inside a literal. -/
theorem InLiteral.withCode (h : st.InLiteral) (hend : Line.isCodeEnd l = false) :
    (st.withCode l).InLiteral := by
  obtain ⟨first, ls, hcode, hstart⟩ := h.opened
  refine { h with
    opened := ⟨first, ls ++ [l], by rw [withCode_codeLines, hcode, List.cons_append], hstart⟩
    unclosed := ?_ }
  rw [withCode_codeLines, List.forall_mem_append]
  exact ⟨h.unclosed, List.forall_mem_singleton.mpr hend⟩

/-- The last line of a literal. -/
theorem InLiteral.wellFormed (h : st.InLiteral) (hend : Line.isCodeEnd l = true) :
    (st.withCode l).WellFormed := by
  obtain ⟨first, ls, hcode, hstart⟩ := h.opened
  have hliteral : IsLiteral (st.withCode l).codeLines :=
    ⟨first, ls, l, by rw [withCode_codeLines, hcode], hstart, hend, hcode ▸ h.unclosed⟩
  have hnever {k : StubKind} (hne : k ≠ .variableDecl) : (st.withCode l).kind ≠ k := by
    rw [withCode_kind, h.kind]
    exact hne.symm
  exact {
    doc := h.doc
    kind := .inr (.inr h.kind)
    code := by simp
    ofClass := fun hk => absurd hk (hnever nofun)
    ofMethod := fun hk => absurd hk (hnever nofun)
    ofVariable := fun _ => ⟨h.className, h.methodName, h.params, .inr hliteral⟩ }

/-- Nothing is open for the stub. -/
def Settled (st : Stub) : Prop := st.Undeclared ∨ st.WellFormed

theorem Settled.undeclared (h : st.Settled) (hk : st.kind = .unknown) : st.Undeclared := by
  refine h.resolve_right fun hw => ?_
  have hkind := hw.kind
  simp [hk] at hkind

/-- A parent is nothing that a stage speaks about. -/
theorem Settled.withParent (h : st.Settled) (p : Text) : Settled { st with parent := p } :=
  h.imp (fun hu => { hu with }) fun hw => { hw with }

end Stub

/-! ## The state of a scan -/

namespace Scanner

/-- How far the stubs are, the newest first. If a doc block is open, the newest one is its stub, which is
undeclared; if a literal is open, the newest one is its variable. Nothing is open for all others. -/
inductive Open : Mode → List Stub → Prop
  | idle {sts : List Stub} (hsts : ∀ x ∈ sts, x.Settled) : Open .idle sts
  | inDoc {k : Int} {st : Stub} {sts : List Stub} (hst : st.Undeclared) (hdoc : st.docLines ≠ [])
      (hk : k = st.line) (hsts : ∀ x ∈ sts, x.Settled) : Open (.inDoc k) (st :: sts)
  | inCode {k : Int} {st : Stub} {sts : List Stub} (hst : st.InLiteral) (hk : st.line ≤ k)
      (hsts : ∀ x ∈ sts, x.Settled) : Open (.inCode k) (st :: sts)

/-- What holds of a scanner in front of line `n`: it has stubs of earlier lines, the newest first, and every
stub is as far as what is open says. -/
structure Sound (n : Int) (s : Scanner) : Prop where
  ordered : (s.stubs.map Stub.line).Pairwise (· > ·)
  earlier : ∀ k ∈ s.stubs.map Stub.line, k < n
  stages : Open s.mode s.stubs

variable {file l : Text} {n : Int} {s s' : Scanner}

theorem sound_start (n : Int) : Sound n {} where
  ordered := List.Pairwise.nil
  earlier := nofun
  stages := .idle nofun

/-- A block is open only for the newest stub. -/
theorem Sound.hasCurrent (hs : Sound n s) : s.HasCurrent := by
  obtain ⟨mode, sts⟩ := s
  obtain ⟨-, -, hopen⟩ := hs
  cases hopen with
  | idle => exact .inl rfl
  | inDoc | inCode => exact .inr (List.cons_ne_nil _ _)

/-- What a declaring line leaves open. -/
theorem open_declared {st : Stub} {sts : List Stub} {f : Stub → Stub}
    (hf : (Line.classify l).complete? = some f) (hst : st.Undeclared) (hline : st.line ≤ n)
    (hsts : ∀ x ∈ sts, x.Settled) :
    Open ((Line.classify l).modeAfter n) ((f st).withCode l :: sts) := by
  by_cases hopen : Line.classify l = .codeStart
  · have hkept : ((f st).withCode l).line ≤ n := (LineShape.complete?_frame hf st).2.2.2.1.trans_le hline
    rw [LineShape.modeAfter, if_pos hopen]
    exact .inCode (hst.inLiteral hf hopen) hkept hsts
  · rw [LineShape.modeAfter, if_neg hopen]
    exact .idle (List.forall_mem_cons.mpr ⟨.inr (hst.wellFormed hf hopen), hsts⟩)

/-- A line takes the stubs on as far as it says. -/
theorem Open.step (h : Step n l s s') (hlines : ∀ st ∈ s.stubs, st.line < n) (hs : Open s.mode s.stubs) :
    Open s'.mode s'.stubs := by
  cases h with
  | trash => exact hs
  | docLine =>
    obtain _ | ⟨hst, hdoc, hk, hsts⟩ := hs
    exact .inDoc (hst.withDoc hdoc l) (by simp) hk hsts
  | docEnd =>
    obtain _ | ⟨hst, hdoc, hk, hsts⟩ := hs
    exact .idle (List.forall_mem_cons.mpr ⟨.inl (hst.withDoc hdoc l), hsts⟩)
  | codeLine _ he =>
    obtain _ | _ | ⟨hst, hk, hsts⟩ := hs
    exact .inCode (hst.withCode he) hk hsts
  | codeEnd _ he =>
    obtain _ | _ | ⟨hst, hk, hsts⟩ := hs
    exact .idle (List.forall_mem_cons.mpr ⟨.inr (hst.wellFormed he), hsts⟩)
  | docStart hc =>
    obtain ⟨hsts⟩ := hs
    exact .inDoc (Stub.undeclared_docStart hc n) (List.cons_ne_nil l []) rfl hsts
  | oneLineDoc hc =>
    obtain ⟨hsts⟩ := hs
    exact .idle (List.forall_mem_cons.mpr ⟨.inl (Stub.undeclared_docStart hc n), hsts⟩)
  | @extension p first sts =>
    obtain ⟨hsts⟩ := hs
    obtain ⟨hsts, hfirst⟩ := List.forall_mem_append.mp hsts
    obtain hfirst := (List.forall_mem_singleton.mp hfirst).withParent p
    exact .idle (List.forall_mem_append.mpr ⟨hsts, List.forall_mem_singleton.mpr hfirst⟩)
  | complete hf hk =>
    obtain ⟨hsts⟩ := hs
    obtain ⟨hst, hsts⟩ := List.forall_mem_cons.mp hsts
    exact open_declared hf (hst.undeclared hk) (Int.le_of_lt (hlines _ List.mem_cons_self)) hsts
  | declare hf =>
    obtain ⟨hsts⟩ := hs
    exact open_declared hf (Stub.undeclared_new n) (Int.le_refl n) hsts

/-- **Every line keeps a scanner sound.** -/
theorem Sound.step (hs : Sound n s) (h : Step n l s s') : Sound (n + 1) s' := by
  have hstages := hs.stages.step h fun st hst => hs.earlier _ (List.mem_map_of_mem hst)
  obtain ⟨heq, -⟩ | ⟨heq, -⟩ := h.numbers
  · refine ⟨heq ▸ hs.ordered, fun k hk => ?_, hstages⟩
    have := hs.earlier k (heq ▸ hk)
    omega
  · refine ⟨?_, fun k hk => ?_, hstages⟩
    · rw [heq]
      exact List.pairwise_cons.mpr ⟨hs.earlier, hs.ordered⟩
    · rw [heq] at hk
      obtain rfl | hk := List.mem_cons.mp hk
      · omega
      · have := hs.earlier k hk
        omega

/-- A scanner is sound after any lines that are no defects. -/
theorem sound_of_steps {ls : List Text} (h : steps file {} 1 ls = .ok s) : Sound (ls.length + 1) s := by
  refine steps_induction (P := fun read s => Sound (read.length + 1) s) (sound_start _) ?_ h
  intro read l s s' hs hstep
  have hlength : ((read ++ [l]).length : Int) = read.length + 1 := by simp
  rw [hlength]
  exact hs.step hstep

/-- **The stubs of a scan are well-formed.** There is a first one, which is a class, they come in the order
of their lines, and each of them has the names and the code of its kind. -/
theorem wellFormed_of_scan {content : Text} {stubs : List Stub} (h : scan file content = .ok stubs) :
    (∃ first rest, stubs = first :: rest ∧ first.kind = .classDecl) ∧
      stubs.Pairwise (fun x y => x.line < y.line) ∧ ∀ st ∈ stubs, st.WellFormed := by
  obtain ⟨s, hs, hend⟩ := scan_eq_ok_iff.mp h
  obtain ⟨ordered, -, hopen⟩ := sound_of_steps hs
  obtain ⟨hidle, rfl, hkinds, hfirst⟩ := finish_eq_ok_iff.mp hend
  rw [hidle] at hopen
  obtain ⟨hsettled⟩ := hopen
  refine ⟨hfirst, ?_, fun st hst => ?_⟩
  · exact List.pairwise_reverse.mpr (List.pairwise_map.mp ordered)
  · exact (hsettled st (List.mem_reverse.mp hst)).resolve_left fun hu => hkinds st hst hu.kind

/-- A class with a doc block, a method, and a literal with an entry. -/
def pumpWithLevels : Text :=
  ("/**\n * A pump.\n */\nfunction Pump() \x7b\x7d\nPump.prototype = new Device();\n" : Text) ++
    ("Pump.prototype.run = function(speed, /*...*/masks) \x7b\x7d;\n" : Text) ++
    ("levels = \x7b\n  low: 1\n\x7d;\n" : Text)

theorem wellFormed_of_scan_pumpWithLevels :
    ∃ stubs, scan "A.js" pumpWithLevels = .ok stubs ∧
      stubs.map Stub.kind = [.classDecl, .methodDecl, .variableDecl] ∧
      stubs.Pairwise (fun x y => x.line < y.line) ∧ ∀ st ∈ stubs, st.WellFormed := by
  have hok : (scan "A.js" pumpWithLevels).isOk = true := by decide +kernel
  have hkinds : ((scan "A.js" pumpWithLevels).toOption.getD []).map Stub.kind =
      [.classDecl, .methodDecl, .variableDecl] := by decide +kernel
  cases h : scan "A.js" pumpWithLevels with
  | error f =>
    rw [h] at hok
    cases hok
  | ok stubs =>
    rw [h] at hkinds
    exact ⟨stubs, rfl, hkinds, (wellFormed_of_scan h).2⟩

end Scanner

end StubDecl
