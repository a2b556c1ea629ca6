import StubDecl.Proofs.Scan.Step

/-!
# The lines of a file and the lines of its stubs

A scan neither loses nor repeats a line. `Reading.all` goes over the lines of a file and says what
is open where each of them is read; this depends on the lines alone. What the stubs of a file hold is
all lines but trash and the extension statements that are read where nothing is open, in source order
(`Reading.lines_of_scan`). Such a statement gives the class of the file its parent, and of several
the last counts.
-/

namespace StubDecl

/-- The lines of a stub. -/
def Stub.lines (st : Stub) : List Text := st.docLines ++ st.codeLines

/-- What is open where a line is read. -/
inductive Reading.Place where
  | outside
  | inDoc
  | inLiteral
  deriving DecidableEq

/-- A line and what is open where it is read. -/
structure Reading where
  place : Reading.Place
  line : Text
  deriving DecidableEq

namespace Reading

/-- What is open behind a line. Trash opens and closes nothing. -/
def Place.after (o : Place) (l : Text) : Place :=
  if Line.isTrash l then o
  else match o with
  | .inDoc => if Line.isDocEnd l then .outside else .inDoc
  | .inLiteral => if Line.isCodeEnd l then .outside else .inLiteral
  | .outside =>
    match Line.classify l with
    | .docStart => if Line.isOneLineDoc l then .outside else .inDoc
    | .codeStart => .inLiteral
    | _ => .outside

/-- Lines with what is open where each of them is read. -/
def all : Place → List Text → List Reading
  | _, [] => []
  | o, l :: ls => ⟨o, l⟩ :: all (o.after l) ls

/-- The parent that an extension statement outside of blocks gives. -/
def parent? (r : Reading) : Option Text :=
  match r.place, Line.classify r.line with
  | .outside, .extension p => some p
  | _, _ => none

/-- Whether a line goes to a stub: all do but trash and extension statements outside of blocks. -/
def isKept (r : Reading) : Bool := !Line.isTrash r.line && r.parent?.isNone

/-- The lines that go to stubs. -/
def kept (ls : List Text) : List Text := ((all .outside ls).filter isKept).map (·.line)

/-- The parents that a file gives, in source order. -/
def parents (ls : List Text) : List Text := (all .outside ls).filterMap parent?

theorem map_line_all (o : Place) (ls : List Text) : (all o ls).map (·.line) = ls := by
  induction ls generalizing o with
  | nil => rfl
  | cons l ls ih => rw [all, List.map_cons, ih]

theorem kept_sublist (ls : List Text) : (kept ls).Sublist ls := by
  have hsub : (kept ls).Sublist ((all .outside ls).map (·.line)) := List.filter_sublist.map _
  rwa [map_line_all] at hsub

/-! ## One more line -/

/-- What is open behind lines. -/
def behind (ls : List Text) : Place := ls.foldl Place.after .outside

theorem Place.after_trash {l : Text} (h : Line.isTrash l = true) (o : Place) : o.after l = o := by
  simp [Place.after, h]

theorem all_concat (o : Place) (ls : List Text) (l : Text) :
    all o (ls ++ [l]) = all o ls ++ [⟨ls.foldl Place.after o, l⟩] := by
  induction ls generalizing o with
  | nil => rfl
  | cons l' ls ih => simp [all, ih]

theorem behind_concat (ls : List Text) (l : Text) :
    behind (ls ++ [l]) = (behind ls).after l := by
  simp [behind]

variable {ls : List Text} {l p : Text} {o : Place}

theorem kept_concat (h : isKept ⟨behind ls, l⟩ = true) : kept (ls ++ [l]) = kept ls ++ [l] := by
  simp [kept, all_concat, ← behind.eq_1, h]

theorem kept_concat_of_not (h : isKept ⟨behind ls, l⟩ = false) : kept (ls ++ [l]) = kept ls := by
  simp [kept, all_concat, ← behind.eq_1, h]

theorem parents_concat (h : parent? ⟨behind ls, l⟩ = none) : parents (ls ++ [l]) = parents ls := by
  simp [parents, all_concat, ← behind.eq_1, h]

theorem parents_concat_of_some (h : parent? ⟨behind ls, l⟩ = some p) :
    parents (ls ++ [l]) = parents ls ++ [p] := by
  simp [parents, all_concat, ← behind.eq_1, h]

theorem parent?_of_ne (h : o ≠ .outside) : parent? ⟨o, l⟩ = none := by
  cases o with
  | outside => exact absurd rfl h
  | inDoc | inLiteral => rfl

theorem parent?_of_shape (h : ∀ p, Line.classify l ≠ .extension p) : parent? ⟨o, l⟩ = none := by
  unfold parent?
  split
  · next p _ hp => exact absurd hp (h p)
  · rfl

/-! ## The stubs hold the lines -/

/-- What is open, without the line where it was opened. -/
def Place.ofMode : Scanner.Mode → Place
  | .idle => .outside
  | .inDoc _ => .inDoc
  | .inCode _ => .inLiteral

/-- Of the parents of stubs, given with the newest stub first, that of the oldest is `p` and all
others are empty. -/
def HasParent (p : Text) (ps : List Text) : Prop := (∀ q ∈ ps.dropLast, q = []) ∧ ps.getLastD [] = p

theorem HasParent.cons {p : Text} {ps : List Text} (h : HasParent p ps) : HasParent p ([] :: ps) := by
  cases ps with
  | nil => exact ⟨by simp, h.2⟩
  | cons q ps => exact ⟨by simpa using h.1, h.2⟩

theorem HasParent.change {p q : Text} {ps : List Text} (h : HasParent p (ps ++ [q])) (r : Text) :
    HasParent r (ps ++ [r]) := by
  have := h.1
  exact ⟨by simpa using this, by simp⟩

/-- What holds of a scanner that has read lines: it agrees on what is open, its stubs hold the lines
that go to stubs, and the oldest has the last parent. While a doc block is open, the newest stub has no
code yet, so that the line which is added to its doc block is the last of its lines. -/
structure Accounts (ls : List Text) (s : Scanner) : Prop where
  place : Place.ofMode s.mode = behind ls
  lines : s.stubs.reverse.flatMap Stub.lines = kept ls
  openDoc : ∀ n st sts, s = ⟨.inDoc n, st :: sts⟩ → st.codeLines = []
  parent : HasParent ((parents ls).getLastD []) (s.stubs.map (·.parent))

theorem accounts_nil : Accounts [] {} where
  place := rfl
  lines := rfl
  openDoc := nofun
  parent := ⟨nofun, rfl⟩

variable {n : Int} {s s' : Scanner}

/-- A line that goes to the newest stub. -/
theorem Accounts.keep (ha : Accounts ls s) (hk : isKept ⟨behind ls, l⟩ = true)
    (hplace : Place.ofMode s'.mode = (behind ls).after l)
    (hlines : s'.stubs.reverse.flatMap Stub.lines = s.stubs.reverse.flatMap Stub.lines ++ [l])
    (hdoc : ∀ n st sts, s' = ⟨.inDoc n, st :: sts⟩ → st.codeLines = [])
    (hparent : HasParent ((parents ls).getLastD []) (s'.stubs.map (·.parent))) :
    Accounts (ls ++ [l]) s' where
  place := by rw [hplace, behind_concat]
  lines := by rw [hlines, ha.lines, kept_concat hk]
  openDoc := hdoc
  parent := by
    rw [isKept, Bool.and_eq_true, Option.isNone_iff_eq_none] at hk
    rwa [parents_concat hk.2]

theorem isKept_of_ne (ht : Line.isTrash l = false) (h : o ≠ .outside) : isKept ⟨o, l⟩ = true := by
  simp [isKept, ht, parent?_of_ne h]

theorem isKept_of_shape (ht : Line.classify l ≠ .trash) (h : ∀ p, Line.classify l ≠ .extension p) :
    isKept ⟨o, l⟩ = true := by
  simp [isKept, Scanner.isTrash_eq_false ht, parent?_of_shape h]

theorem isKept_of_complete {f : Stub → Stub} (h : (Line.classify l).complete? = some f) :
    isKept ⟨o, l⟩ = true := by
  refine isKept_of_shape ?_ ?_
  · intro hc
    rw [hc] at h
    cases h
  · intro p hc
    rw [hc] at h
    cases h

/-- What is open behind a declaring line. -/
theorem ofMode_modeAfter {f : Stub → Stub} (h : (Line.classify l).complete? = some f) (n : Int) :
    Place.ofMode ((Line.classify l).modeAfter n) = Place.outside.after l := by
  simp only [Place.after, Scanner.isTrash_of_complete? h]
  cases hc : Line.classify l <;> simp_all [LineShape.modeAfter, LineShape.complete?, Place.ofMode]

theorem modeAfter_ne_inDoc (shape : LineShape) (n k : Int) : shape.modeAfter n ≠ .inDoc k := by
  unfold LineShape.modeAfter
  split <;> simp

/-- **A step neither loses nor repeats a line.** -/
theorem accounts_step (h : Scanner.Step n l s s') (ha : Accounts ls s) : Accounts (ls ++ [l]) s' := by
  have hplace := ha.place
  cases h with
  | trash ht =>
    have hk : isKept ⟨behind ls, l⟩ = false := by simp [isKept, ht]
    have hp : parent? ⟨behind ls, l⟩ = none := by
      refine parent?_of_shape fun p hc => ?_
      rw [Line.classify, if_pos ht] at hc
      cases hc
    exact {
      place := by rw [behind_concat, Place.after_trash ht, hplace]
      lines := by rw [kept_concat_of_not hk, ha.lines]
      openDoc := ha.openDoc
      parent := by rw [parents_concat hp]; exact ha.parent }
  | @docLine k st sts ht he =>
    have hcode := ha.openDoc k st sts rfl
    have hk := isKept_of_ne (o := .inDoc) ht (by decide)
    rw [show Place.inDoc = behind ls from hplace] at hk
    refine ha.keep hk ?_ ?_ ?_ ha.parent
    · simp [← hplace, Place.ofMode, Place.after, ht, he]
    · simp [Stub.lines, hcode]
    · rintro _ _ _ ⟨⟩
      exact hcode
  | @docEnd k st sts ht he =>
    have hcode := ha.openDoc k st sts rfl
    have hk := isKept_of_ne (o := .inDoc) ht (by decide)
    rw [show Place.inDoc = behind ls from hplace] at hk
    refine ha.keep hk ?_ ?_ ?_ ha.parent
    · simp [← hplace, Place.ofMode, Place.after, ht, he]
    · simp [Stub.lines, hcode]
    · rintro _ _ _ ⟨⟩
  | @codeLine k st sts ht he | @codeEnd k st sts ht he =>
    have hk := isKept_of_ne (o := .inLiteral) ht (by decide)
    rw [show Place.inLiteral = behind ls from hplace] at hk
    refine ha.keep hk ?_ ?_ ?_ ha.parent
    · simp [← hplace, Place.ofMode, Place.after, ht, he]
    · simp [Stub.lines]
    · rintro _ _ _ ⟨⟩
  | @docStart sts hc ho | @oneLineDoc sts hc ho =>
    have ht : Line.isTrash l = false := Scanner.isTrash_eq_false (by rw [hc]; simp)
    have hk := isKept_of_shape (o := behind ls) (l := l) (by rw [hc]; simp) (by rw [hc]; simp)
    refine ha.keep hk ?_ ?_ ?_ ha.parent.cons
    · simp [← hplace, Place.ofMode, Place.after, ht, hc, ho]
    · simp [Stub.lines]
    · rintro _ _ _ ⟨⟩ <;> rfl
  | @extension p first sts hc hk =>
    have ht : Line.isTrash l = false := Scanner.isTrash_eq_false (by rw [hc]; simp)
    have hp : parent? ⟨behind ls, l⟩ = some p := by
      rw [← show Place.outside = behind ls from hplace]
      simp [parent?, hc]
    exact {
      place := by simp [behind_concat, ← hplace, Place.ofMode, Place.after, ht, hc]
      lines := by
        rw [kept_concat_of_not (by simp [isKept, hp]), ← ha.lines]
        simp [Stub.lines]
      openDoc := by rintro _ _ _ ⟨⟩
      parent := by
        rw [parents_concat_of_some hp, List.getLastD_concat]
        have := ha.parent
        simp only [List.map_append, List.map_cons, List.map_nil] at this ⊢
        exact this.change p }
  | @complete f st sts hc hk =>
    obtain ⟨hd, hcode, hpar, -⟩ := LineShape.complete?_frame hc st
    refine ha.keep (isKept_of_complete hc) ?_ ?_ ?_ ?_
    · rw [← hplace]
      exact ofMode_modeAfter hc n
    · simp [Stub.lines, hd, hcode]
    · intro k st sts h
      exact absurd (congrArg Scanner.mode h) (modeAfter_ne_inDoc _ n k)
    · have := ha.parent
      simpa [hpar] using this
  | @declare f sts hc hk =>
    obtain ⟨hd, hcode, hpar, -⟩ := LineShape.complete?_frame hc { line := n }
    refine ha.keep (isKept_of_complete hc) ?_ ?_ ?_ ?_
    · rw [← hplace]
      exact ofMode_modeAfter hc n
    · simp [Stub.lines, hd, hcode]
    · intro k st sts h
      exact absurd (congrArg Scanner.mode h) (modeAfter_ne_inDoc _ n k)
    · have := ha.parent.cons
      simpa [hpar] using this

theorem accounts_of_steps {file : Text} (h : Scanner.steps file {} 1 ls = .ok s) : Accounts ls s :=
  Scanner.steps_induction (P := Accounts) accounts_nil (fun _ _ _ _ ha hstep => accounts_step hstep ha) h

/-- The lines of the stubs are those that go to stubs. -/
theorem flatMap_lines_of_scan {file content : Text} {stubs : List Stub}
    (h : scan file content = .ok stubs) : stubs.flatMap Stub.lines = kept (sourceLines content) := by
  obtain ⟨s, hs, hf⟩ := Scanner.scan_eq_ok_iff.1 h
  obtain ⟨-, rfl, -⟩ := Scanner.finish_eq_ok_iff.1 hf
  exact (accounts_of_steps hs).lines

/-- **The stubs of a file hold its lines**, each once and in source order, without trash and without
the extension statements outside of blocks. The last of these gives the first stub its parent, and no
other stub has one. -/
theorem lines_of_scan {file content : Text} {stubs : List Stub} (h : scan file content = .ok stubs) :
    stubs.flatMap Stub.lines = kept (sourceLines content) ∧
      ∃ first rest, stubs = first :: rest ∧
        first.parent = (parents (sourceLines content)).getLastD [] ∧ ∀ st ∈ rest, st.parent = [] := by
  obtain ⟨s, hs, hf⟩ := Scanner.scan_eq_ok_iff.1 h
  have ha := accounts_of_steps hs
  obtain ⟨-, rfl, -, first, rest, hstubs, -⟩ := Scanner.finish_eq_ok_iff.1 hf
  refine ⟨flatMap_lines_of_scan h, first, rest, hstubs, ?_⟩
  have hsts : s.stubs = rest.reverse ++ [first] := by
    rw [← List.reverse_reverse s.stubs, hstubs, List.reverse_cons]
  obtain ⟨hempty, hlast⟩ := ha.parent
  rw [hsts, List.map_append] at hempty hlast
  exact ⟨by simpa using hlast, by simpa using hempty⟩

/-- A file with an extension statement behind its class, one between a doc block and its declaration,
and one inside a literal. -/
def threeExtensions : Text :=
  ("function A\n\nA.prototype = new B\n/** */\nA.prototype = new C\n" : Text) ++
    ("var x = \x7b\nA.prototype = new D\n\x7d;" : Text)

theorem lines_of_scan_threeExtensions :
    ∃ stubs, scan "A.js" threeExtensions = .ok stubs ∧
      stubs.flatMap Stub.lines = kept (sourceLines threeExtensions) ∧
      parents (sourceLines threeExtensions) = [("B" : Text), ("C" : Text)] ∧
      ∃ first rest, stubs = first :: rest ∧
        first.parent = (parents (sourceLines threeExtensions)).getLastD [] ∧
          ∀ st ∈ rest, st.parent = [] := by
  have hok : (scan "A.js" threeExtensions).isOk = true := by decide +kernel
  cases h : scan "A.js" threeExtensions with
  | error f =>
    rw [h] at hok
    cases hok
  | ok stubs => exact ⟨stubs, rfl, (lines_of_scan h).1, by decide +kernel, (lines_of_scan h).2⟩

end Reading

end StubDecl
