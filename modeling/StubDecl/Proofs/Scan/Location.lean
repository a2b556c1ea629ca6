import Mathlib.Data.List.ReduceOption
import StubDecl.Proofs.Scan.Failure
import StubDecl.Proofs.Scan.Lines

/-!
# Where the defect of a file is

The line that a failing scan reports is said of the lines of the file alone, with what is open where each
of them is read (`Reading.all`):

* `Reading.orphans` lists the doc blocks without a declaration, by number and opening line;
* `Reading.Unclosed` says that a block is opened and not closed by any later line;
* `Reading.FirstAt` says which line is the first that is not trash.

`Reading.Located` puts them together, one case for each kind of defect, and `Reading.located_of_scan` says
that every defect of a scan is located so. The invariant behind it is `Reading.Marks`.
-/

namespace StubDecl

/-- Whether a line of this shape starts a declaration. -/
def LineShape.isDeclaration : LineShape → Bool
  | .codeStart | .classLine _ | .methodLine _ _ | .variableLine => true
  | _ => false

theorem LineShape.isDeclaration_eq (shape : LineShape) :
    shape.isDeclaration = shape.complete?.isSome := by
  cases shape <;> rfl

namespace Reading

/-! ## Doc blocks without a declaration -/

/-- Whether this line opens a doc block. -/
def opensDoc (r : Reading) : Bool := r.place = .outside && Line.classify r.line = .docStart

/-- Whether this line starts a declaration. -/
def declares (r : Reading) : Bool := r.place = .outside && (Line.classify r.line).isDeclaration

/-- Whether a declaration starts before the next doc block opens. -/
def findsDeclaration : List Reading → Bool
  | [] => false
  | r :: rs => r.declares || !r.opensDoc && findsDeclaration rs

/-- The doc blocks without a declaration: the number and the text of the line that opens each of them,
the first line having number `n`. -/
def orphans : Int → List Reading → List (Int × Text)
  | _, [] => []
  | n, r :: rs =>
    if r.opensDoc && !findsDeclaration rs then (n, r.line) :: orphans (n + 1) rs
    else orphans (n + 1) rs

theorem mem_orphans_bounds {n k : Int} {t : Text} {rs : List Reading} (h : (k, t) ∈ orphans n rs) :
    n ≤ k ∧ k < n + rs.length := by
  induction rs generalizing n with
  | nil => cases h
  | cons r rs ih =>
    have hrest : (k, t) ∈ orphans (n + 1) rs → n ≤ k ∧ k < n + (r :: rs).length := by
      intro hmem
      have := ih hmem
      rw [List.length_cons]
      omega
    rw [orphans] at h
    split at h
    · obtain heq | hmem := List.mem_cons.mp h
      · cases heq
        rw [List.length_cons]
        omega
      · exact hrest hmem
    · exact hrest h

/-- The doc blocks that have been read and have no declaration: those that cannot get one any more,
and the one that waits for it. -/
structure Docs where
  lost : List (Int × Text) := []
  waiting : Option (Int × Text) := none

/-- The doc blocks after one more line, which has number `n`. -/
def Docs.next (d : Docs) (n : Int) (r : Reading) : Docs :=
  if r.opensDoc then ⟨d.lost ++ d.waiting.toList, some (n, r.line)⟩
  else if r.declares then ⟨d.lost, none⟩
  else d

/-- The doc blocks after lines, the first of which has number `n`. -/
def Docs.after : Docs → Int → List Reading → Docs
  | d, _, [] => d
  | d, n, r :: rs => (d.next n r).after (n + 1) rs

theorem Docs.after_concat (d : Docs) (n : Int) (rs : List Reading) (r : Reading) :
    d.after n (rs ++ [r]) = (d.after n rs).next (n + rs.length) r := by
  induction rs generalizing d n with
  | nil => simp [after]
  | cons r' rs ih =>
    have hn : n + 1 + (rs.length : Int) = n + ((r' :: rs).length : Int) := by
      rw [List.length_cons]
      omega
    rw [List.cons_append, after, ih, hn, after]

theorem declares_of_opensDoc {r : Reading} (h : r.opensDoc = true) : r.declares = false := by
  simp only [opensDoc, Bool.and_eq_true, decide_eq_true_eq] at h
  simp [declares, h.2, LineShape.isDeclaration]

/-- Read line by line, the doc blocks without a declaration are the same. -/
theorem Docs.after_eq_orphans (d : Docs) (n : Int) (rs : List Reading) :
    (d.after n rs).lost ++ (d.after n rs).waiting.toList =
      d.lost ++ (if findsDeclaration rs then [] else d.waiting.toList) ++ orphans n rs := by
  induction rs generalizing d n with
  | nil => simp [after, findsDeclaration, orphans]
  | cons r rs ih =>
    rw [after, ih, findsDeclaration, orphans, next]
    cases ho : r.opensDoc with
    | true =>
      rw [declares_of_opensDoc ho]
      cases findsDeclaration rs <;> simp
    | false => cases r.declares <;> cases findsDeclaration rs <;> simp

/-! ## Blocks and first lines -/

/-- Line `n` opens a block, and no later line closes it. -/
def Unclosed (opens : Text → Prop) (closes : Text → Bool) (ls : List Text) (n : Int) : Prop :=
  ∃ before line after, ls = before ++ line :: after ∧ n = before.length + 1 ∧
    behind before = .outside ∧ opens line ∧
      ∀ l ∈ after, Line.isTrash l = false → closes l = false

/-- Line `n` is the first that is not trash. -/
def FirstAt (ls : List Text) (n : Int) : Prop :=
  ∃ before line after, ls = before ++ line :: after ∧ n = before.length + 1 ∧
    Line.isTrash line = false ∧ ∀ l ∈ before, Line.isTrash l = true

variable {opens : Text → Prop} {closes : Text → Bool} {ls : List Text} {l : Text} {n : Int}

theorem Unclosed.start (hplace : behind ls = .outside) (h : opens l) :
    Unclosed opens closes (ls ++ [l]) (ls.length + 1) :=
  ⟨ls, l, [], rfl, rfl, hplace, h, nofun⟩

theorem Unclosed.concat (h : Unclosed opens closes ls n)
    (hl : Line.isTrash l = false → closes l = false) : Unclosed opens closes (ls ++ [l]) n := by
  obtain ⟨before, line, after, rfl, hn, hplace, hopens, hafter⟩ := h
  refine ⟨before, line, after ++ [l], by simp, hn, hplace, hopens, ?_⟩
  exact List.forall_mem_append.mpr ⟨hafter, List.forall_mem_singleton.mpr hl⟩

theorem FirstAt.start (h : ∀ x ∈ ls, Line.isTrash x = true) (hl : Line.isTrash l = false) :
    FirstAt (ls ++ [l]) (ls.length + 1) :=
  ⟨ls, l, [], rfl, rfl, hl, h⟩

theorem FirstAt.concat (h : FirstAt ls n) (l : Text) : FirstAt (ls ++ [l]) n := by
  obtain ⟨before, line, after, rfl, hn, hline, hbefore⟩ := h
  exact ⟨before, line, after ++ [l], by simp, hn, hline, hbefore⟩

/-- A line that opens a doc block of several lines. -/
def OpensDocBlock (l : Text) : Prop := Line.classify l = .docStart ∧ Line.isOneLineDoc l = false

/-- A line that opens a literal. -/
def OpensLiteral (l : Text) : Prop := Line.classify l = .codeStart

/-- The open block, if there is one, has been opened in the given line and not closed since. -/
def OpenedAt (ls : List Text) : Scanner.Mode → Prop
  | .idle => True
  | .inDoc n => Unclosed OpensDocBlock Line.isDocEnd ls n
  | .inCode n => Unclosed OpensLiteral Line.isCodeEnd ls n

theorem openedAt_concat {m : Scanner.Mode} (h : OpenedAt ls m) (ht : Line.isTrash l = true) :
    OpenedAt (ls ++ [l]) m := by
  have hno : ∀ b : Bool, Line.isTrash l = false → b = false := by
    intro b hf
    rw [ht] at hf
    cases hf
  cases m with
  | idle => trivial
  | inDoc k | inCode k => exact Unclosed.concat h (hno _)

theorem openedAt_modeAfter (hplace : behind ls = .outside) (shape : LineShape)
    (h : Line.classify l = shape) : OpenedAt (ls ++ [l]) (shape.modeAfter (ls.length + 1)) := by
  unfold LineShape.modeAfter
  split
  · next hcode => exact Unclosed.start hplace (h.trans hcode)
  · trivial

variable {s s' : Scanner}

/-- A step keeps the place where the open block was opened. -/
theorem openedAt_step (h : Scanner.Step (ls.length + 1) l s s')
    (hplace : Place.ofMode s.mode = behind ls) (ho : OpenedAt ls s.mode) :
    OpenedAt (ls ++ [l]) s'.mode := by
  cases h with
  | trash ht => exact openedAt_concat ho ht
  | docLine ht he | codeLine ht he => exact Unclosed.concat ho fun _ => he
  | docEnd | codeEnd | oneLineDoc | extension => trivial
  | docStart hc hone => exact Unclosed.start hplace.symm ⟨hc, hone⟩
  | complete | declare => exact openedAt_modeAfter hplace.symm _ rfl

/-! ## The numbers of the stubs -/

/-- There is no stub as long as there is only trash, and the oldest one starts with the first line that
is not trash. -/
def KnowsFirst (ls : List Text) (s : Scanner) : Prop :=
  (s.stubs = [] ∧ ∀ l ∈ ls, Line.isTrash l = true) ∨
    ∃ first ∈ s.stubs.getLast?, FirstAt ls first.line

theorem knowsFirst_step (h : Scanner.Step (ls.length + 1) l s s') (hf : KnowsFirst ls s) :
    KnowsFirst (ls ++ [l]) s' := by
  have hnumber : ∀ {t : Scanner}, (∃ first ∈ t.stubs.getLast?, FirstAt (ls ++ [l]) first.line) ↔
      ∃ k ∈ (t.stubs.map (·.line)).getLast?, FirstAt (ls ++ [l]) k := by
    simp [List.getLast?_map]
  rw [KnowsFirst, hnumber]
  obtain ⟨hsame, hwhy⟩ | ⟨hnew, ht⟩ := h.numbers
  · rw [hsame]
    obtain ⟨hnil, htrash⟩ | ⟨first, hlast, hfirst⟩ := hf
    · refine .inl ⟨by simpa [hnil] using hsame, ?_⟩
      exact List.forall_mem_append.mpr
        ⟨htrash, List.forall_mem_singleton.mpr (hwhy.resolve_right (not_not.mpr hnil))⟩
    · exact .inr (hnumber.mp ⟨first, hlast, hfirst.concat l⟩)
  · rw [hnew]
    obtain ⟨hnil, htrash⟩ | ⟨first, hlast, hfirst⟩ := hf
    · rw [hnil]
      exact .inr ⟨_, rfl, FirstAt.start htrash ht⟩
    · refine .inr ⟨first.line, ?_, hfirst.concat l⟩
      have hne : s.stubs.map (·.line) ≠ [] := by
        rintro hnil
        rw [List.map_eq_nil_iff] at hnil
        rw [hnil] at hlast
        cases hlast
      rw [List.getLast?_cons_of_ne_nil hne, List.getLast?_map]
      exact Option.mem_map_of_mem _ hlast

/-! ## The stubs without a declaration -/

/-- The number and the first doc line of a stub that waits for its declaration. -/
def awaited? (st : Stub) : Option (Int × Text) :=
  if st.kind = .unknown then some (st.line, st.docLines.headD []) else none

theorem awaited?_of_known {st : Stub} (h : st.kind ≠ .unknown) : awaited? st = none := if_neg h

/-- The stubs that wait for their declarations are the doc blocks without one. They have been opened by a
line of a doc block. -/
structure KnowsDocs (ls : List Text) (s : Scanner) : Prop where
  waiting : (Docs.after {} 1 (all .outside ls)).waiting = (s.stubs.map awaited?).headD none
  lost : (Docs.after {} 1 (all .outside ls)).lost =
    (s.stubs.map awaited?).tail.reduceOption.reverse
  documented : ∀ st ∈ s.stubs, st.kind = .unknown → st.docLines ≠ []

theorem after_concat (ls : List Text) (l : Text) :
    Docs.after {} 1 (all .outside (ls ++ [l])) =
      (Docs.after {} 1 (all .outside ls)).next (ls.length + 1) ⟨behind ls, l⟩ := by
  have hlength : (all .outside ls).length = ls.length := by
    rw [← List.length_map (·.line), map_line_all]
  rw [all_concat, Docs.after_concat, hlength, Int.add_comm]
  rfl

/-- A line that neither opens a doc block nor starts a declaration. -/
theorem KnowsDocs.keep (hk : KnowsDocs ls s) (ho : opensDoc ⟨behind ls, l⟩ = false)
    (hd : declares ⟨behind ls, l⟩ = false) (hsame : s'.stubs.map awaited? = s.stubs.map awaited?)
    (hdoc : ∀ st ∈ s'.stubs, st.kind = .unknown → st.docLines ≠ []) : KnowsDocs (ls ++ [l]) s' := by
  have hnext : Docs.after {} 1 (all .outside (ls ++ [l])) = Docs.after {} 1 (all .outside ls) := by
    rw [after_concat, Docs.next, ho, hd]
    rfl
  exact ⟨by rw [hnext, hsame, hk.waiting], by rw [hnext, hsame, hk.lost], hdoc⟩

/-- A line that opens a doc block. -/
theorem KnowsDocs.openDoc (hk : KnowsDocs ls s) (ho : opensDoc ⟨behind ls, l⟩ = true)
    (hnew : s'.stubs = { line := ls.length + 1, docLines := [l] } :: s.stubs) :
    KnowsDocs (ls ++ [l]) s' := by
  have hnext : Docs.after {} 1 (all .outside (ls ++ [l])) =
      ⟨(s.stubs.map awaited?).reduceOption.reverse, some (ls.length + 1, l)⟩ := by
    rw [after_concat, Docs.next, ho, if_pos rfl, hk.lost, hk.waiting]
    cases s.stubs.map awaited? with
    | nil => rfl
    | cons a as =>
      cases a with
      | none => simp [List.reduceOption_cons_of_none]
      | some a => simp [List.reduceOption_cons_of_some]
  refine ⟨by rw [hnext, hnew]; rfl, by rw [hnext, hnew]; rfl, ?_⟩
  rw [hnew]
  exact List.forall_mem_cons.mpr ⟨fun _ => List.cons_ne_nil l [], hk.documented⟩

/-- A line that starts a declaration. -/
theorem KnowsDocs.declare (hk : KnowsDocs ls s) (ho : opensDoc ⟨behind ls, l⟩ = false)
    (hd : declares ⟨behind ls, l⟩ = true) {st : Stub} {sts : List Stub} (hnew : s'.stubs = st :: sts)
    (hst : st.kind ≠ .unknown)
    (hsts : (sts.map awaited?).reduceOption = (s.stubs.map awaited?).tail.reduceOption)
    (hdoc : ∀ x ∈ sts, x.kind = .unknown → x.docLines ≠ []) : KnowsDocs (ls ++ [l]) s' := by
  have hnext : Docs.after {} 1 (all .outside (ls ++ [l])) =
      ⟨(s.stubs.map awaited?).tail.reduceOption.reverse, none⟩ := by
    rw [after_concat, Docs.next, ho, hd, hk.lost]
    rfl
  refine ⟨?_, ?_, ?_⟩
  · rw [hnext, hnew, List.map_cons, awaited?_of_known hst]
    rfl
  · rw [hnext, hnew, List.map_cons, List.tail_cons, hsts]
  · rw [hnew]
    exact List.forall_mem_cons.mpr ⟨fun h => absurd h hst, hdoc⟩

theorem awaited?_withDoc {st : Stub} (h : st.kind = .unknown → st.docLines ≠ []) (l : Text) :
    awaited? (st.withDoc l) = awaited? st := by
  by_cases hk : st.kind = .unknown
  · obtain ⟨x, xs, hx⟩ := List.exists_cons_of_ne_nil (h hk)
    simp [awaited?, hk, hx]
  · rw [awaited?_of_known hk, awaited?_of_known (by simpa using hk)]

/-- Inside a block nothing is opened or declared. -/
theorem quiet_of_ne {o : Place} (h : o ≠ .outside) :
    opensDoc ⟨o, l⟩ = false ∧ declares ⟨o, l⟩ = false := by
  simp [opensDoc, declares, h]

/-- A line that starts a declaration opens no doc block. -/
theorem declares_of_complete {f : Stub → Stub} (hplace : .outside = behind ls)
    (hc : (Line.classify l).complete? = some f) :
    opensDoc ⟨behind ls, l⟩ = false ∧ declares ⟨behind ls, l⟩ = true := by
  rw [← hplace]
  have hd : declares ⟨.outside, l⟩ = true := by
    simp [declares, LineShape.isDeclaration_eq, hc]
  refine ⟨Bool.eq_false_iff.mpr fun ho => ?_, hd⟩
  rw [declares_of_opensDoc ho] at hd
  cases hd

/-- A step keeps account of the doc blocks. -/
theorem knowsDocs_step (h : Scanner.Step (ls.length + 1) l s s')
    (hplace : Place.ofMode s.mode = behind ls) (hk : KnowsDocs ls s) : KnowsDocs (ls ++ [l]) s' := by
  have hinside : Place.ofMode s.mode ≠ .outside →
      opensDoc ⟨behind ls, l⟩ = false ∧ declares ⟨behind ls, l⟩ = false := by
    rw [hplace]
    exact quiet_of_ne
  cases h with
  | trash ht =>
    have hshape : Line.classify l = .trash := by rw [Line.classify, if_pos ht]
    exact hk.keep (by simp [opensDoc, hshape]) (by simp [declares, hshape, LineShape.isDeclaration]) rfl
      hk.documented
  | @docLine k st sts | @docEnd k st sts =>
    obtain ⟨ho, hd⟩ := hinside (by simp [Place.ofMode])
    obtain ⟨hst, hsts⟩ := List.forall_mem_cons.mp hk.documented
    refine hk.keep ho hd ?_ (List.forall_mem_cons.mpr ⟨fun _ => by simp, hsts⟩)
    rw [List.map_cons, List.map_cons, awaited?_withDoc hst]
  | @codeLine k st sts | @codeEnd k st sts =>
    obtain ⟨ho, hd⟩ := hinside (by simp [Place.ofMode])
    obtain ⟨hst, hsts⟩ := List.forall_mem_cons.mp hk.documented
    exact hk.keep ho hd rfl (List.forall_mem_cons.mpr ⟨hst, hsts⟩)
  | docStart hc | oneLineDoc hc =>
    have hout : Place.outside = behind ls := hplace
    exact hk.openDoc (by simp [opensDoc, ← hout, hc]) rfl
  | @extension p first sts hc hclass =>
    refine hk.keep (by simp [opensDoc, hc]) (by simp [declares, hc, LineShape.isDeclaration]) ?_ ?_
    · simp only [List.map_append, List.map_cons]
      rfl
    · have hdoc := hk.documented
      simp only [List.forall_mem_append, List.forall_mem_singleton] at hdoc ⊢
      exact hdoc
  | @complete f st sts hc =>
    obtain ⟨ho, hd⟩ := declares_of_complete hplace hc
    refine hk.declare ho hd rfl (LineShape.complete?_frame hc st).2.2.2.2 rfl ?_
    exact fun x hx => hk.documented x (List.mem_cons_of_mem st hx)
  | @declare f sts hc hhead =>
    obtain ⟨ho, hd⟩ := declares_of_complete hplace hc
    refine hk.declare ho hd rfl (LineShape.complete?_frame hc _).2.2.2.2 ?_ hk.documented
    cases sts with
    | nil => rfl
    | cons st sts =>
      have hst : st.kind ≠ .unknown := hhead st rfl
      rw [List.map_cons, awaited?_of_known hst]
      rfl

/-! ## Whole scans -/

/-- What holds of a scanner that has read lines: it knows where the open block was opened, which line was
the first that is not trash, and which doc blocks have no declaration. -/
structure Marks (ls : List Text) (s : Scanner) : Prop where
  accounts : Accounts ls s
  opened : OpenedAt ls s.mode
  first : KnowsFirst ls s
  docs : KnowsDocs ls s

theorem marks_of_steps {file : Text} (h : Scanner.steps file {} 1 ls = .ok s) : Marks ls s := by
  refine Scanner.steps_induction (P := Marks) ?_ (fun read line s s' hm hstep => ?_) h
  · exact ⟨accounts_nil, trivial, .inl ⟨rfl, nofun⟩, ⟨rfl, rfl, nofun⟩⟩
  · have hplace := hm.accounts.place
    exact ⟨accounts_step hstep hm.accounts, openedAt_step hstep hplace hm.opened,
      knowsFirst_step hstep hm.first, knowsDocs_step hstep hplace hm.docs⟩

/-- The stubs that wait for their declarations, in source order, are the doc blocks without one. -/
theorem KnowsDocs.orphans_eq (hk : KnowsDocs ls s) :
    orphans 1 (all .outside ls) = s.stubs.reverse.filterMap awaited? := by
  have hread := Docs.after_eq_orphans {} 1 (all .outside ls)
  have hnone : (if findsDeclaration (all .outside ls) then [] else (none : Option (Int × Text)).toList) =
      [] := by
    split <;> rfl
  rw [hk.lost, hk.waiting, hnone, List.nil_append, List.nil_append] at hread
  rw [← hread, List.filterMap_reverse]
  cases s.stubs with
  | nil => rfl
  | cons st sts =>
    rw [List.map_cons, List.tail_cons, List.headD_cons, List.filterMap_cons]
    have hsts : (sts.map awaited?).reduceOption = sts.filterMap awaited? := by
      rw [List.reduceOption, List.filterMap_map]
      rfl
    rw [hsts]
    cases awaited? st with
    | none => simp
    | some a => simp

theorem findSome?_awaited? (sts : List Stub) :
    sts.findSome? awaited? =
      (sts.find? (·.kind = .unknown)).map fun st => (st.line, st.docLines.headD []) := by
  induction sts with
  | nil => rfl
  | cons st sts ih =>
    by_cases hk : st.kind = .unknown
    · simp [awaited?, hk]
    · rw [List.findSome?_cons, awaited?_of_known hk, List.find?_cons_of_neg (by simpa using hk), ih]

/-! ## Defects -/

/-- Where the defect `d` of a content is, the scan of which fails with `f`. -/
inductive Located (file content : Text) (f : Failure) (d : Defect) : Prop
  /-- In the first line that is no step of the scanner. What stands behind it does not matter. -/
  | line {before after : List Text} {line : Text} {s : Scanner}
      (hkind : d.kind = .unrecognizedLine ∨ d.kind = .extendsBeforeClass)
      (hlines : sourceLines content = before ++ line :: after)
      (hnumber : d.line = before.length + 1) (htext : d.text = line)
      (hbefore : Scanner.steps file {} 1 before = .ok s)
      (hline : Scanner.step file s d.line line = .error f)
      (hstart : ∀ content', before ++ [line] <+: sourceLines content' →
        scan file content' = .error f)
  /-- In the line that opens a block which no later line closes. -/
  | unterminated (hkind : d.kind = .unterminatedBlock)
      (hopen : Unclosed OpensDocBlock Line.isDocEnd (sourceLines content) d.line ∨
        Unclosed OpensLiteral Line.isCodeEnd (sourceLines content) d.line)
  /-- In the line that opens the first doc block without a declaration. -/
  | orphan (hkind : d.kind = .orphanDoc)
      (hfirst : (orphans 1 (all .outside (sourceLines content))).head? = some (d.line, d.text))
  /-- In the first line that is not trash, or in none if there is no such line. -/
  | missing (hkind : d.kind = .missingClass)
      (hfirst : FirstAt (sourceLines content) d.line ∨
        d.line = 0 ∧ ∀ l ∈ sourceLines content, Line.isTrash l = true)

variable {file content : Text} {f : Failure} {d : Defect}

/-- The line of a defect is one of the file, if it has one. -/
theorem Located.line_bounds (h : Located file content f d) :
    d.line = 0 ∨ 1 ≤ d.line ∧ d.line ≤ (sourceLines content).length := by
  have hsplit : ∀ {before after : List Text} {line : Text},
      sourceLines content = before ++ line :: after → d.line = before.length + 1 →
        1 ≤ d.line ∧ d.line ≤ (sourceLines content).length := by
    intro before after line hlines hn
    rw [hlines, hn, List.length_append, List.length_cons]
    omega
  cases h with
  | line _ hlines hnumber => exact .inr (hsplit hlines hnumber)
  | unterminated _ hopen =>
    obtain ⟨before, line, after, hlines, hn, -⟩ | ⟨before, line, after, hlines, hn, -⟩ := hopen
    · exact .inr (hsplit hlines hn)
    · exact .inr (hsplit hlines hn)
  | orphan _ hfirst =>
    have hbounds := mem_orphans_bounds (List.mem_of_head? hfirst)
    rw [← List.length_map (·.line), map_line_all] at hbounds
    omega
  | missing _ hfirst =>
    obtain ⟨before, line, after, hlines, hn, -⟩ | ⟨hzero, -⟩ := hfirst
    · exact .inr (hsplit hlines hn)
    · exact .inl hzero

/-- A scan that fails at a line. -/
theorem located_of_steps (h : Scanner.steps file {} 1 (sourceLines content) = .error f) :
    ∃ d, f.cause = .defect d ∧ d.file = file ∧ Located file content f d := by
  obtain ⟨before, line, after, s, hlines, hbefore, hline⟩ := Scanner.steps_eq_error_iff.mp h
  have hfails := Scanner.step_error (Scanner.steps_hasCurrent (.inl rfl) hbefore) hline
  obtain ⟨kind, hcause, hkind⟩ := hfails.cause_eq
  refine ⟨_, hcause, rfl, .line hkind hlines (Int.add_comm 1 _) rfl hbefore hline ?_⟩
  rintro content' ⟨rest, hrest⟩
  have hsteps : Scanner.steps file {} 1 (sourceLines content') = .error f :=
    Scanner.steps_eq_error_iff.mpr ⟨before, line, rest, s, by simp [← hrest], hbefore, hline⟩
  rw [scan, hsteps]

/-- A file that cannot end where it does. -/
theorem located_of_unfinished {s : Scanner} (hm : Marks (sourceLines content) s)
    (h : Scanner.Unfinished file s f) :
    ∃ d, f.cause = .defect d ∧ d.file = file ∧ Located file content f d := by
  have hopened := hm.opened
  have horphans := hm.docs.orphans_eq
  have hfirst := hm.first
  cases h with
  | inDoc => exact ⟨_, rfl, rfl, .unterminated rfl (.inl hopened)⟩
  | inCode => exact ⟨_, rfl, rfl, .unterminated rfl (.inr hopened)⟩
  | empty =>
    obtain ⟨-, htrash⟩ | ⟨first, hlast, -⟩ := hfirst
    · exact ⟨_, rfl, rfl, .missing rfl (.inr ⟨rfl, htrash⟩)⟩
    · cases hlast
  | @orphan st sts hst =>
    refine ⟨_, rfl, rfl, .orphan rfl ?_⟩
    rw [horphans, List.head?_filterMap, findSome?_awaited?, hst, Option.map_some]
  | @noClass first sts =>
    obtain ⟨hnil, -⟩ | ⟨first', hlast, hat⟩ := hfirst
    · exact absurd hnil (by simp)
    · obtain rfl : first = first' := by simpa using hlast
      exact ⟨_, rfl, rfl, .missing rfl (.inl hat)⟩

/-- **Where a defect is.** A scan that fails does so with a defect of the given file. A line that fits
nowhere, or a parent before the class, is the first line that the scanner cannot take, with the text of this
line, and every content with the same lines up to there fails in the same way. A block that is not terminated
is opened in the reported line, and no later line but trash closes it. An orphan doc block is the first that
has no declaration, with the text of the line that opens it. Where a class is missing, the line is the first
that is not trash, and 0 exactly if there is none. Every other number is that of a line of the file. -/
theorem located_of_scan (h : scan file content = .error f) :
    ∃ d, f.cause = .defect d ∧ d.file = file ∧ Located file content f d ∧
      (d.line = 0 ∨ 1 ≤ d.line ∧ d.line ≤ (sourceLines content).length) := by
  have hlocated : ∃ d, f.cause = .defect d ∧ d.file = file ∧ Located file content f d := by
    obtain hline | ⟨s, hs, hend⟩ := Scanner.scan_eq_error h
    · exact located_of_steps hline
    · exact located_of_unfinished (marks_of_steps hs) hend
  obtain ⟨d, hcause, hfile, hd⟩ := hlocated
  exact ⟨d, hcause, hfile, hd, hd.line_bounds⟩

/-- A file with a doc block that has no declaration, between a class and a documented method. -/
def lostDoc : Text :=
  ("\nfunction A() \x7b\x7d\n/**\n * Lost.\n */\n\n" : Text) ++
    ("/** Does f. */\nA.prototype.f = function() \x7b\x7d;" : Text)

theorem located_of_scan_lostDoc :
    ∃ f d, scan "A.js" lostDoc = .error f ∧ f.cause = .defect d ∧ d.kind = .orphanDoc ∧ d.line = 3 ∧
      d.text = "/**" ∧
      (orphans 1 (all .outside (sourceLines lostDoc))).head? = some (d.line, d.text) := by
  have hfails : scan "A.js" lostDoc = .error (Scanner.defect .orphanDoc "A.js" 3 "/**") := by
    decide +kernel
  obtain ⟨d, hcause, -, hlocated, -⟩ := located_of_scan hfails
  cases hcause
  refine ⟨_, _, hfails, rfl, rfl, rfl, rfl, ?_⟩
  cases hlocated with
  | line hkind => exact absurd hkind (by decide)
  | unterminated hkind | missing hkind => exact absurd hkind (by decide)
  | orphan _ hfirst => exact hfirst

end Reading

end StubDecl
