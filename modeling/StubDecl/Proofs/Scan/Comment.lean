import StubDecl.Proofs.Line.Shape
import StubDecl.Proofs.Scan.Step

/-!
# Doc blocks and comments

A block comment goes from `/*` to the first `*/` behind it. A doc block is closed by other rules: by a
line that ends in `*/` if it is the only one, and by a line that starts with ` */` otherwise. So a doc
block may go on behind the end of its comment and take in what stands there, declarations included.

* `Comment.behind?` gives what stands behind the comment that a text starts with, and
  `Comment.EndsOnce` says of lines that `*/` stands at the end of the last one and nowhere else;
* `Scanner.docBlock_of_scan`: how the doc blocks of a scan look, by the rules that open and close them;
* `Comment.scan_endsOnce_iff`: every doc block starts with a whole comment, and it is nothing but this
  comment if and only if it was written in one of two ways.
-/

namespace StubDecl

namespace Comment

/-! ## The end of a comment -/

/-- What stands behind the first `*/` of a text. -/
def afterEnd? : Text → Option Text
  | [] => none
  | b :: t => Text.dropPrefix? (b :: t) "*/" <|> afterEnd? t

/-- What stands behind the block comment that a text starts with. -/
def behind? (t : Text) : Option Text := (t.dropPrefix? "/*").bind afterEnd?

theorem end_isPrefix_iff {b : UInt8} {t : Text} :
    ("*/" : Text) <+: b :: t ↔ b = 0x2a ∧ t.head? = some 0x2f := by
  have hend : ("*/" : Text) = [0x2a, 0x2f] := rfl
  cases t <;> simp [hend, List.cons_prefix_cons, eq_comm]

theorem afterEnd?_here (r : Text) : afterEnd? ("*/" ++ r) = some r := by
  have hend : ("*/" : Text) = [0x2a, 0x2f] := rfl
  simp [hend, afterEnd?, Text.dropPrefix?]

theorem afterEnd?_cons {b : UInt8} {t : Text} (h : ¬ ("*/" : Text) <+: b :: t) :
    afterEnd? (b :: t) = afterEnd? t := by
  have hnone : Text.dropPrefix? (b :: t) "*/" = none := by
    rw [Option.eq_none_iff_forall_ne_some]
    intro r hr
    exact h ⟨r, (Text.eq_append_of_dropPrefix? hr).symm⟩
  rw [afterEnd?, hnone]
  rfl

/-- A text is cut at a `*/` before which there is none. -/
theorem afterEnd?_append_end {u : Text} (h : ¬ ("*/" : Text) <:+: u ++ "*") (r : Text) :
    afterEnd? (u ++ "*/" ++ r) = some r := by
  induction u with
  | nil => exact afterEnd?_here r
  | cons b u ih =>
    have hnext : ¬ ("*/" : Text) <+: b :: (u ++ "*/" ++ r) := by
      intro hpre
      obtain ⟨rfl, hhead⟩ := end_isPrefix_iff.mp hpre
      refine h (List.IsPrefix.isInfix (end_isPrefix_iff.mpr ⟨rfl, ?_⟩))
      cases u with
      | nil => cases hhead
      | cons c u => exact hhead
    rw [List.cons_append, List.cons_append, afterEnd?_cons hnext]
    exact ih fun hin => h (List.infix_cons hin)

/-- A text has no `*/`, or it is cut at the first one. -/
theorem afterEnd?_cases (t : Text) :
    ¬ ("*/" : Text) <:+: t ∧ afterEnd? t = none ∨
      ∃ u r, t = u ++ "*/" ++ r ∧ ¬ ("*/" : Text) <:+: u ++ "*" ∧ afterEnd? t = some r := by
  induction t with
  | nil => exact .inl ⟨by decide, rfl⟩
  | cons b t ih =>
    by_cases hend : ("*/" : Text) <+: b :: t
    · obtain ⟨r, hr⟩ := hend
      refine .inr ⟨[], r, hr.symm, by decide, ?_⟩
      rw [← hr]
      exact afterEnd?_here r
    · rw [afterEnd?_cons hend]
      obtain ⟨hno, hnone⟩ | ⟨u, r, rfl, hno, hsome⟩ := ih
      · refine .inl ⟨fun hin => ?_, hnone⟩
        exact (List.infix_cons_iff.mp hin).elim hend hno
      · refine .inr ⟨b :: u, r, rfl, fun hin => ?_, hsome⟩
        obtain hpre | hin := List.infix_cons_iff.mp hin
        · obtain ⟨rfl, hhead⟩ := end_isPrefix_iff.mp hpre
          refine hend (end_isPrefix_iff.mpr ⟨rfl, ?_⟩)
          cases u with
          | nil => cases hhead
          | cons c u => exact hhead
        · exact hno hin

theorem afterEnd?_eq_none_iff {t : Text} : afterEnd? t = none ↔ ¬ ("*/" : Text) <:+: t := by
  obtain ⟨hno, hnone⟩ | ⟨u, r, rfl, -, hsome⟩ := afterEnd?_cases t
  · exact iff_of_true hnone hno
  · rw [hsome]
    exact iff_of_false (Option.some_ne_none r) fun hno => hno ⟨u, r, rfl⟩

/-- The first `*/` is the end of a text if the text ends so and there is no other one. -/
theorem afterEnd?_eq_nil_iff {t : Text} :
    afterEnd? t = some [] ↔ ∃ u, t = u ++ "*/" ∧ ¬ ("*/" : Text) <:+: u ++ "*" := by
  constructor
  · intro h
    obtain ⟨-, hnone⟩ | ⟨u, r, rfl, hno, hsome⟩ := afterEnd?_cases t
    · rw [hnone] at h
      cases h
    · rw [hsome] at h
      cases h
      exact ⟨u, List.append_nil _, hno⟩
  · rintro ⟨u, rfl, hno⟩
    have hcut := afterEnd?_append_end hno []
    rwa [List.append_nil] at hcut

/-- What follows a text stands behind its first `*/` too. -/
theorem afterEnd?_append {t r : Text} (h : afterEnd? t = some r) (x : Text) :
    afterEnd? (t ++ x) = some (r ++ x) := by
  obtain ⟨-, hnone⟩ | ⟨u, r', rfl, hno, hsome⟩ := afterEnd?_cases t
  · rw [hnone] at h
    cases h
  · rw [hsome] at h
    cases h
    rw [List.append_assoc]
    exact afterEnd?_append_end hno (r ++ x)

/-- A line without `*/` is passed over. No `*/` goes over the end of a line. -/
theorem afterEnd?_line {l : Text} (h : afterEnd? l = none) (x : Text) :
    afterEnd? (l ++ "\n" ++ x) = afterEnd? x := by
  have hnewline : ("\n" : Text) = [0x0a] := rfl
  rw [hnewline, List.append_assoc, List.singleton_append]
  induction l with
  | nil =>
    refine afterEnd?_cons fun hpre => ?_
    obtain ⟨hb, -⟩ := end_isPrefix_iff.mp hpre
    cases hb
  | cons b l ih =>
    have hstart : ¬ ("*/" : Text) <+: b :: l := by
      intro hpre
      exact afterEnd?_eq_none_iff.mp h hpre.isInfix
    have hnext : ¬ ("*/" : Text) <+: b :: (l ++ 0x0a :: x) := by
      intro hpre
      obtain ⟨rfl, hhead⟩ := end_isPrefix_iff.mp hpre
      refine hstart (end_isPrefix_iff.mpr ⟨rfl, ?_⟩)
      cases l with
      | nil => cases hhead
      | cons c l => exact hhead
    rw [List.cons_append, afterEnd?_cons hnext]
    exact ih (by rwa [afterEnd?_cons hstart] at h)

/-! ## Comments of several lines -/

/-- Lines with the first `*/` of all at the very end. -/
theorem afterEnd?_lines_eq_nil_iff (ls : List Text) (e : Text) :
    afterEnd? (Text.joinWith "\n" (ls ++ [e])) = some [] ↔
      (∀ l ∈ ls, ¬ ("*/" : Text) <:+: l) ∧ afterEnd? e = some [] := by
  induction ls with
  | nil => simp [Text.joinWith]
  | cons l ls ih =>
    rw [List.cons_append, Text.joinWith_cons _ _ (by simp), List.forall_mem_cons]
    cases hl : afterEnd? l with
    | none => rw [afterEnd?_line hl, ih, and_assoc, and_iff_right (afterEnd?_eq_none_iff.mp hl)]
    | some r =>
      -- at least the newline stands behind
      rw [List.append_assoc, afterEnd?_append hl]
      refine iff_of_false (by simp [Text.ofString]) fun hno => ?_
      rw [afterEnd?_eq_none_iff.mpr hno.1.1] at hl
      cases hl

theorem afterEnd?_lines_isSome {e r : Text} (he : afterEnd? e = some r) (ls : List Text) :
    ∃ x, afterEnd? (Text.joinWith "\n" (ls ++ [e])) = some x := by
  induction ls with
  | nil => exact ⟨r, he⟩
  | cons l ls ih =>
    rw [List.cons_append, Text.joinWith_cons _ _ (by simp)]
    cases hl : afterEnd? l with
    | none =>
      rw [afterEnd?_line hl]
      exact ih
    | some x =>
      rw [List.append_assoc, afterEnd?_append hl]
      exact ⟨_, rfl⟩

/-- Lines without the `/*` that the first one starts with. -/
def inner : List Text → List Text
  | [] => []
  | l :: ls => l.drop 2 :: ls

/-- Behind the opening, `*/` stands at the end of the last line and nowhere else. -/
def EndsOnce (ls : List Text) : Prop :=
  ∃ (before : List Text) (u : Text), inner ls = before ++ [u ++ "*/"] ∧
    (∀ l ∈ before, ¬ ("*/" : Text) <:+: l) ∧ ¬ ("*/" : Text) <:+: u ++ "*"

theorem endsOnce_iff {ls before : List Text} {e : Text} (h : inner ls = before ++ [e]) :
    EndsOnce ls ↔ (∀ l ∈ before, ¬ ("*/" : Text) <:+: l) ∧ afterEnd? e = some [] := by
  rw [afterEnd?_eq_nil_iff]
  constructor
  · rintro ⟨before', u, h', hbefore, hu⟩
    obtain ⟨rfl, rfl⟩ : before = before' ∧ e = u ++ "*/" := by
      simpa using List.append_inj' (h.symm.trans h') rfl
    exact ⟨hbefore, u, rfl, hu⟩
  · rintro ⟨hbefore, u, rfl, hu⟩
    exact ⟨before, u, h, hbefore, hu⟩

/-- What stands behind the comment that lines start with. -/
theorem behind?_lines {l : Text} (hl : ("/*" : Text) <+: l) (ls : List Text) :
    behind? (Text.joinWith "\n" (l :: ls)) = afterEnd? (Text.joinWith "\n" (inner (l :: ls))) := by
  obtain ⟨t, rfl⟩ := hl
  have hdrop : (("/*" : Text) ++ t).drop 2 = t := rfl
  have hjoin : Text.joinWith "\n" ((("/*" : Text) ++ t) :: ls) =
      ("/*" : Text) ++ Text.joinWith "\n" (t :: ls) := by
    cases ls with
    | nil => rfl
    | cons l' ls => simp only [Text.joinWith, List.append_assoc]
  rw [behind?, hjoin, Text.dropPrefix?_append, inner, hdrop, Option.bind_some]

end Comment

/-! ## The doc blocks of a scan -/

/-- How a doc block is read: as one line that is opened and closed, or as a line that is only opened
and all lines up to the first one that closes a block. -/
inductive DocBlock : List Text → Prop
  | oneLine {l : Text} (hstart : Line.isDocStart l = true) (hone : Line.isOneLineDoc l = true) :
      DocBlock [l]
  | lines {l e : Text} {ls : List Text} (hstart : Line.isDocStart l = true)
      (hone : Line.isOneLineDoc l = false) (hinside : ∀ x ∈ ls, Line.isDocEnd x = false)
      (hend : Line.isDocEnd e = true) : DocBlock (l :: ls ++ [e])

namespace Scanner

/-- The lines of a doc block that is still open. -/
def OpenDoc (ls : List Text) : Prop :=
  ∃ l inside, ls = l :: inside ∧ Line.isDocStart l = true ∧ Line.isOneLineDoc l = false ∧
    ∀ x ∈ inside, Line.isDocEnd x = false

/-- No doc block, or a closed one. -/
def ClosedDoc (st : Stub) : Prop := st.docLines = [] ∨ DocBlock st.docLines

/-- All doc blocks are closed, but for the one that is being read. -/
def DocsClosed (s : Scanner) : Prop :=
  match s.mode with
  | .idle | .inCode _ => ∀ x ∈ s.stubs, ClosedDoc x
  | .inDoc _ => ∃ st sts, s.stubs = st :: sts ∧ OpenDoc st.docLines ∧ ∀ x ∈ sts, ClosedDoc x

theorem docsClosed_modeAfter {sts : List Stub} (h : ∀ x ∈ sts, ClosedDoc x) (shape : LineShape)
    (n : Int) : DocsClosed ⟨shape.modeAfter n, sts⟩ := by
  unfold LineShape.modeAfter
  split
  · exact h
  · exact h

/-- **A step leaves all doc blocks closed** but the one that is being read. -/
theorem docsClosed_step {n : Int} {l : Text} {s s' : Scanner} (h : Step n l s s')
    (hs : DocsClosed s) : DocsClosed s' := by
  cases h with
  | trash => exact hs
  | docLine ht he =>
    obtain ⟨st, sts, ⟨⟩, ⟨first, inside, hdoc, hstart, hone, hinside⟩, hsts⟩ := hs
    refine ⟨_, _, rfl, ⟨first, inside ++ [l], ?_, hstart, hone, ?_⟩, hsts⟩
    · rw [Stub.withDoc_docLines, hdoc, List.cons_append]
    · simpa [or_imp, forall_and, he] using hinside
  | docEnd ht he =>
    obtain ⟨st, sts, ⟨⟩, ⟨first, inside, hdoc, hstart, hone, hinside⟩, hsts⟩ := hs
    refine List.forall_mem_cons.mpr ⟨.inr ?_, hsts⟩
    rw [Stub.withDoc_docLines, hdoc]
    exact .lines hstart hone hinside he
  | codeLine ht he | codeEnd ht he =>
    obtain ⟨hst, hsts⟩ := List.forall_mem_cons.mp hs
    exact List.forall_mem_cons.mpr ⟨hst, hsts⟩
  | docStart hc ho =>
    exact ⟨_, _, rfl, ⟨l, [], rfl, Line.isDocStart_of_classify hc, ho, by simp⟩, hs⟩
  | oneLineDoc hc ho =>
    exact List.forall_mem_cons.mpr ⟨.inr (.oneLine (Line.isDocStart_of_classify hc) ho), hs⟩
  | @extension p first sts hc hk =>
    intro x hx
    obtain hx | hx := List.mem_append.mp hx
    · exact hs x (List.mem_append_left _ hx)
    · obtain rfl := List.mem_singleton.mp hx
      have hfirst : ClosedDoc first := hs first (List.mem_append_right _ (List.mem_singleton_self _))
      exact hfirst
  | complete hc hk =>
    obtain ⟨hst, hsts⟩ := List.forall_mem_cons.mp hs
    refine docsClosed_modeAfter (List.forall_mem_cons.mpr ⟨?_, hsts⟩) _ n
    rw [ClosedDoc, Stub.withCode_docLines, (LineShape.complete?_frame hc _).1]
    exact hst
  | declare hc hk =>
    refine docsClosed_modeAfter (List.forall_mem_cons.mpr ⟨.inl ?_, hs⟩) _ n
    rw [Stub.withCode_docLines, (LineShape.complete?_frame hc _).1]

/-- The doc lines of a stub are a doc block as it is read. -/
theorem docBlock_of_scan {file content : Text} {stubs : List Stub} {st : Stub}
    (h : scan file content = .ok stubs) (hst : st ∈ stubs) (hdoc : st.docLines ≠ []) :
    DocBlock st.docLines := by
  obtain ⟨s, hs, hf⟩ := scan_eq_ok_iff.mp h
  have hclosed : DocsClosed s := steps_induction (P := fun _ => DocsClosed) (List.forall_mem_nil _)
    (fun _ _ _ _ hs hstep => docsClosed_step hstep hs) hs
  obtain ⟨hidle, rfl, -⟩ := finish_eq_ok_iff.mp hf
  rw [DocsClosed, hidle] at hclosed
  exact (hclosed st (List.mem_reverse.mp hst)).resolve_left hdoc

end Scanner

namespace Comment

/-- A doc block starts with `/*`. -/
theorem opens_of_isDocStart {l : Text} (h : Line.isDocStart l = true) : ("/*" : Text) <+: l := by
  have hpre : ("/**" : Text) <+: l := List.isPrefixOf_iff_prefix.mp h
  exact List.IsPrefix.trans ⟨"*", rfl⟩ hpre

/-- A line that closes a doc block has `*/` behind a blank, and it ends there if it is nothing else. -/
theorem afterEnd?_docEnd {e : Text} (h : Line.isDocEnd e = true) :
    ∃ r, e = " */" ++ r ∧ afterEnd? e = some r := by
  obtain ⟨r, rfl⟩ := Text.exists_of_startsWith h
  exact ⟨r, rfl, afterEnd?_append_end (u := " ") (by decide) r⟩

/-- A block of one line ends in `*/`, behind its opening. -/
theorem inner_oneLine {l : Text} (hstart : Line.isDocStart l = true)
    (hone : Line.isOneLineDoc l = true) : ∃ u : Text, l.drop 2 = u ++ "*/" := by
  obtain ⟨t, rfl⟩ := Text.exists_of_startsWith hstart
  simp only [Line.isOneLineDoc, Bool.and_eq_true, decide_eq_true_eq] at hone
  obtain ⟨hlen, hend⟩ := hone
  have hdrop : (("/**" : Text) ++ t).drop 2 = ("*" : Text) ++ t := rfl
  have hsplit : ("/**" : Text) ++ t = ("/*" : Text) ++ (("*" : Text) ++ t) := rfl
  rw [hsplit, Text.endsWith_append ?_] at hend
  · obtain ⟨u, hu⟩ := List.isSuffixOf_iff_suffix.mp hend
    exact ⟨u, hdrop.trans hu.symm⟩
  · have h3 : ("/**" : Text).length = 3 := rfl
    have h1 : ("*" : Text).length = 1 := rfl
    have h2 : ("*/" : Text).length = 2 := rfl
    simp only [List.length_append] at hlen ⊢
    omega

/-- A doc block opens with `/*`, and its last line has a `*/`. -/
theorem docBlock_inner {ls : List Text} (h : DocBlock ls) :
    ∃ l rest before e r, ls = l :: rest ∧ ("/*" : Text) <+: l ∧ inner ls = before ++ [e] ∧
      afterEnd? e = some r := by
  cases h with
  | @oneLine l hstart hone =>
    obtain ⟨u, hu⟩ := inner_oneLine hstart hone
    obtain ⟨hno, -⟩ | ⟨-, r, -, -, hsome⟩ := afterEnd?_cases (l.drop 2)
    · exact absurd ⟨u, [], by rw [hu, List.append_nil]⟩ hno
    · exact ⟨l, [], [], l.drop 2, r, rfl, opens_of_isDocStart hstart, rfl, hsome⟩
  | @lines l e ls hstart hone hinside hend =>
    obtain ⟨r, -, hsome⟩ := afterEnd?_docEnd hend
    exact ⟨l, ls ++ [e], l.drop 2 :: ls, e, r, rfl, opens_of_isDocStart hstart, rfl, hsome⟩

/-- A doc block starts with a whole comment, and nothing else is in it if `*/` closes it and stands
nowhere else. -/
theorem behind?_docBlock {ls : List Text} (h : DocBlock ls) :
    ∃ swallowed, behind? (Text.joinWith "\n" ls) = some swallowed ∧
      (swallowed = [] ↔ EndsOnce ls) := by
  obtain ⟨l, rest, before, e, r, rfl, hopen, hinner, hsome⟩ := docBlock_inner h
  obtain ⟨swallowed, hx⟩ := afterEnd?_lines_isSome hsome before
  rw [behind?_lines hopen, endsOnce_iff hinner, ← afterEnd?_lines_eq_nil_iff, hinner, hx]
  exact ⟨swallowed, rfl, by rw [Option.some.injEq]⟩

/-- How a doc block has to be written to be nothing but a comment. -/
theorem endsOnce_docBlock {ls : List Text} (h : DocBlock ls) :
    (∃ l, ls = [l] ∧ (EndsOnce ls ↔ ¬ ("*/" : Text) <:+: (l.drop 2).dropLast)) ∨
      ∃ (l : Text) (inside : List Text) (e : Text), ls = l :: inside ++ [e] ∧
        (EndsOnce ls ↔ e = " */" ∧ ∀ x ∈ l.drop 2 :: inside, ¬ ("*/" : Text) <:+: x) := by
  cases h with
  | @oneLine l hstart hone =>
    refine .inl ⟨l, rfl, ?_⟩
    obtain ⟨u, hu⟩ := inner_oneLine hstart hone
    have hlast : (u ++ "*/" : Text).dropLast = u ++ "*" := by
      have hend : ("*/" : Text) = ("*" : Text) ++ [0x2f] := rfl
      rw [hend, ← List.append_assoc, List.dropLast_concat]
    have hinner : inner [l] = [] ++ [l.drop 2] := rfl
    rw [endsOnce_iff hinner, afterEnd?_eq_nil_iff, hu, hlast]
    constructor
    · rintro ⟨-, v, hv, hno⟩
      rwa [List.append_cancel_right hv]
    · intro hno
      exact ⟨List.forall_mem_nil _, u, rfl, hno⟩
  | @lines l e inside hstart hone hinside hend =>
    refine .inr ⟨l, inside, e, rfl, ?_⟩
    obtain ⟨r, rfl, hsome⟩ := afterEnd?_docEnd hend
    have hinner : inner (l :: inside ++ [" */" ++ r]) = (l.drop 2 :: inside) ++ [" */" ++ r] := rfl
    rw [endsOnce_iff hinner, hsome, Option.some.injEq, and_comm]
    simp

/-- **When a doc block is nothing but a comment.** The doc lines of every stub start with a whole block
comment. Nothing else is in them if and only if `*/` stands at the end of the last line and, behind the
opening, nowhere else. For a block of one line this says that `*/` does not stand before the end; for one
of several lines, that the last line is ` */` and that no line before it has a `*/`. -/
theorem scan_endsOnce_iff {file content : Text} {stubs : List Stub} {st : Stub}
    (h : scan file content = .ok stubs) (hst : st ∈ stubs) (hdoc : st.docLines ≠ []) :
    (∃ swallowed, behind? (Text.joinWith "\n" st.docLines) = some swallowed ∧
      (swallowed = [] ↔ EndsOnce st.docLines)) ∧
    ((∃ l, st.docLines = [l] ∧
        (EndsOnce st.docLines ↔ ¬ ("*/" : Text) <:+: (l.drop 2).dropLast)) ∨
      ∃ (l : Text) (inside : List Text) (e : Text), st.docLines = l :: inside ++ [e] ∧
        (EndsOnce st.docLines ↔
          e = " */" ∧ ∀ x ∈ l.drop 2 :: inside, ¬ ("*/" : Text) <:+: x)) := by
  have hblock := Scanner.docBlock_of_scan h hst hdoc
  exact ⟨behind?_docBlock hblock, endsOnce_docBlock hblock⟩

/-- A doc block whose comment ends on a line of text, and a method behind it. -/
def endInText : Text :=
  ("function A() \x7b\x7d\n/**\n * Does f. */\nA.prototype.f = function() \x7b\x7d;\n" : Text) ++
    ("/**\n * Does g.\n */\nA.prototype.g = function() \x7b\x7d;" : Text)

/-- The declaration of `f` has become a part of the doc block of `g`. -/
theorem scan_endsOnce_iff_endInText :
    ∃ stubs st, scan "A.js" endInText = .ok stubs ∧ st ∈ stubs ∧ st.methodName = "g" ∧
      ("A.prototype.f = function() \x7b\x7d;" : Text) ∈ st.docLines ∧
      behind? (Text.joinWith "\n" st.docLines) ≠ some [] ∧ ¬ EndsOnce st.docLines := by
  have hlast : ∃ st ∈ (scan "A.js" endInText).toOption.bind List.getLast?, st.methodName = "g" ∧
      ("A.prototype.f = function() \x7b\x7d;" : Text) ∈ st.docLines ∧
      behind? (Text.joinWith "\n" st.docLines) ≠ some [] := by
    decide +kernel
  obtain ⟨st, hst, hname, hmem, hbehind⟩ := hlast
  cases h : scan "A.js" endInText with
  | error f =>
    rw [h] at hst
    cases hst
  | ok stubs =>
    rw [h] at hst
    have hst' : st ∈ stubs := List.mem_of_getLast? hst
    refine ⟨stubs, st, rfl, hst', hname, hmem, hbehind, fun hends => hbehind ?_⟩
    obtain ⟨⟨swallowed, hsome, hiff⟩, -⟩ := scan_endsOnce_iff h hst' (List.ne_nil_of_mem hmem)
    rw [hsome, hiff.mpr hends]

end Comment

end StubDecl
