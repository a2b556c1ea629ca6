import StubDecl.Proofs.Declaration
import StubDecl.Proofs.Line.Receiver
import StubDecl.Proofs.Scan.Declared
import StubDecl.Proofs.Scan.Failure
import StubDecl.Proofs.Scan.Lines
import StubDecl.Proofs.Scan.Run

/-!
# The class that a member belongs to

All methods and all extensions of a file belong to its class: nothing compares the receiver of a statement with
the name of the class. What a receiver does is to stand in the code of its method. So a file in which another
word takes the place of all receivers has the same stubs but for that, and the same declaration
(`Reading.receivers_of_scan`). In particular the class of the file can take their place.
-/

namespace StubDecl

/-! ## Exchanging the receivers -/

/-- A method with the word `c` in the place of the receiver in its code; other stubs stay as they are. -/
def Stub.readdress (c : Text) (st : Stub) : Stub :=
  { st with
    codeLines := if st.kind = .methodDecl then st.codeLines.map (Line.readdress c) else st.codeLines }

/-- The scanner with the word `c` in the place of the receivers of its methods. -/
def Scanner.readdress (c : Text) (s : Scanner) : Scanner := { s with stubs := s.stubs.map (Stub.readdress c) }

namespace Reading

/-- The line with the word `c` in the place of its receiver, if it is a statement outside of blocks. -/
def readdress (c : Text) (r : Reading) : Text :=
  match r.place with
  | .outside => Line.readdress c r.line
  | .inDoc | .inLiteral => r.line

/-- Lines with the word `c` in the place of all receivers of statements. -/
def readdressed (c : Text) (ls : List Text) : List Text := (all .outside ls).map (readdress c)

/-- A content with the word `c` in the place of all receivers of statements. -/
def readdressContent (c content : Text) : Text := Text.joinWith "\n" (readdressed c (sourceLines content))

end Reading

namespace Stub

variable {c : Text} {st : Stub}

theorem readdress_of_ne (h : st.kind ≠ .methodDecl) (c : Text) : st.readdress c = st := by
  rw [readdress, if_neg h]

@[simp] theorem readdress_kind (c : Text) (st : Stub) : (st.readdress c).kind = st.kind := rfl

/-- The declaring line of a stub without code is the line that is readdressed. -/
theorem readdress_declared {l : Text} {f : Stub → Stub} (hf : (Line.classify l).complete? = some f)
    (hcode : st.codeLines = []) (c : Text) :
    ((f st).withCode l).readdress c = (f st).withCode (Line.readdress c l) := by
  generalize hshape : Line.classify l = shape at hf
  cases LineShape.declares_of_complete? hf with
  | methodLine => simp [readdress, withCode, hcode]
  | codeStart | classLine | variableLine =>
    rw [Line.readdress_of_shape (by simp [hshape]) (by simp [hshape])]
    rfl

/-- What a scan knows of the code of a stub: there is none before it is declared, and that of a method is the
line that declares it. -/
structure HasDeclaration (st : Stub) : Prop where
  unknown : st.kind = .unknown → st.codeLines = []
  method : st.kind = .methodDecl →
    ∃ l ps, st.codeLines = [l] ∧ Line.classify l = .methodLine st.methodName ps

theorem HasDeclaration.withDoc (h : st.HasDeclaration) (l : Text) : (st.withDoc l).HasDeclaration :=
  ⟨h.unknown, h.method⟩

theorem hasDeclaration_of_variable (h : st.kind = .variableDecl) : st.HasDeclaration where
  unknown hk := by
    rw [h] at hk
    cases hk
  method hk := by
    rw [h] at hk
    cases hk

theorem hasDeclaration_declared {l : Text} {f : Stub → Stub} (hf : (Line.classify l).complete? = some f)
    (hcode : st.codeLines = []) : ((f st).withCode l).HasDeclaration where
  unknown hk := absurd hk (LineShape.complete?_frame hf st).2.2.2.2
  method hk := by
    generalize hshape : Line.classify l = shape at hf
    cases LineShape.declares_of_complete? hf with
    | methodLine m ps => exact ⟨l, ps, by simp [withCode, hcode], hshape⟩
    | codeStart | classLine | variableLine => cases hk

end Stub

/-! ## The same scan -/

namespace Scanner

variable {file c l : Text} {n : Int} {s s' : Scanner}

/-- What holds of a scanner: its stubs have their declarations, and an open literal is that of a variable. -/
structure HasDeclarations (s : Scanner) : Prop where
  stubs : ∀ st ∈ s.stubs, st.HasDeclaration
  literal : ∀ k, s.mode = .inCode k → ∀ st ∈ s.stubs.head?, st.kind = .variableDecl

/-- A literal is open only behind the line that opens it. -/
theorem variable_of_modeAfter {f : Stub → Stub} (hf : (Line.classify l).complete? = some f) {k : Int}
    (h : (Line.classify l).modeAfter n = .inCode k) (st : Stub) : (f st).kind = .variableDecl := by
  generalize Line.classify l = shape at hf h
  cases LineShape.declares_of_complete? hf with
  | codeStart | variableLine => rfl
  | classLine | methodLine => cases h

theorem hasDeclarations_step (h : Step n l s s') (hs : s.HasDeclarations) : s'.HasDeclarations := by
  obtain ⟨hstubs, hliteral⟩ := hs
  cases h with
  | trash => exact ⟨hstubs, hliteral⟩
  | docLine | docEnd =>
    obtain ⟨hst, hsts⟩ := List.forall_mem_cons.mp hstubs
    exact ⟨List.forall_mem_cons.mpr ⟨hst.withDoc l, hsts⟩, nofun⟩
  | @codeLine k st sts | @codeEnd k st sts =>
    obtain ⟨-, hsts⟩ := List.forall_mem_cons.mp hstubs
    have hvariable : st.kind = .variableDecl := hliteral k rfl st rfl
    have hst : (st.withCode l).HasDeclaration := Stub.hasDeclaration_of_variable hvariable
    refine ⟨List.forall_mem_cons.mpr ⟨hst, hsts⟩, ?_⟩
    rintro _ - _ ⟨⟩
    exact hvariable
  | docStart | oneLineDoc =>
    exact ⟨List.forall_mem_cons.mpr ⟨⟨fun _ => rfl, nofun⟩, hstubs⟩, nofun⟩
  | extension hc hk =>
    obtain ⟨hsts, hfirst⟩ := List.forall_mem_append.mp hstubs
    obtain ⟨hunknown, hmethod⟩ := List.forall_mem_singleton.mp hfirst
    exact ⟨List.forall_mem_append.mpr ⟨hsts, List.forall_mem_singleton.mpr ⟨hunknown, hmethod⟩⟩, nofun⟩
  | @complete f st sts hf hk =>
    obtain ⟨hst, hsts⟩ := List.forall_mem_cons.mp hstubs
    refine ⟨List.forall_mem_cons.mpr ⟨Stub.hasDeclaration_declared hf (hst.unknown hk), hsts⟩, ?_⟩
    rintro k hmode _ ⟨⟩
    exact variable_of_modeAfter hf hmode st
  | declare hf =>
    refine ⟨List.forall_mem_cons.mpr ⟨Stub.hasDeclaration_declared hf rfl, hstubs⟩, ?_⟩
    rintro k hmode _ ⟨⟩
    exact variable_of_modeAfter hf hmode _

/-- **A step does not look at the receiver**: it is the same step for another one. -/
theorem Step.readdress (h : Step n l s s') (hc : IsWord c) (hs : s.HasDeclarations) :
    Step n (Reading.readdress c ⟨Reading.Place.ofMode s.mode, l⟩) (s.readdress c) (s'.readdress c) := by
  have hstay : ∀ {o}, Line.classify l = .trash ∨ Line.classify l = .docStart →
      Reading.readdress c ⟨o, l⟩ = l := by
    intro o hshape
    have hkeep : Line.readdress c l = l := by
      obtain hshape | hshape := hshape <;> exact Line.readdress_of_shape (by simp [hshape]) (by simp [hshape]) c
    cases o with
    | outside => exact hkeep
    | inDoc | inLiteral => rfl
  have hshape := Line.classify_readdress hc l
  cases h with
  | trash ht =>
    rw [hstay (.inl (by rw [Line.classify, if_pos ht]))]
    exact .trash ht
  | docLine ht he =>
    exact .docLine ht he
  | docEnd ht he =>
    exact .docEnd ht he
  | @codeLine k st sts ht he =>
    have hk : st.kind ≠ .methodDecl := by simp [hs.literal k rfl st rfl]
    have hk' : (st.withCode l).kind ≠ .methodDecl := hk
    simp only [Scanner.readdress, List.map_cons, Stub.readdress_of_ne hk, Stub.readdress_of_ne hk']
    exact .codeLine ht he
  | @codeEnd k st sts ht he =>
    have hk : st.kind ≠ .methodDecl := by simp [hs.literal k rfl st rfl]
    have hk' : (st.withCode l).kind ≠ .methodDecl := hk
    simp only [Scanner.readdress, List.map_cons, Stub.readdress_of_ne hk, Stub.readdress_of_ne hk']
    exact .codeEnd ht he
  | docStart hd ho =>
    rw [hstay (.inr hd)]
    exact .docStart hd ho
  | oneLineDoc hd ho =>
    rw [hstay (.inr hd)]
    exact .oneLineDoc hd ho
  | @extension p first sts he hk =>
    simp only [Scanner.readdress, List.map_append, List.map_cons, List.map_nil]
    exact .extension (hshape.trans he) hk
  | @complete f st sts hf hk =>
    have hst : st.readdress c = st := Stub.readdress_of_ne (by simp [hk]) c
    have hcode : st.codeLines = [] := (hs.stubs st List.mem_cons_self).unknown hk
    simp only [Scanner.readdress, List.map_cons, hst, Stub.readdress_declared hf hcode, ← hshape]
    exact .complete (hshape ▸ hf) hk
  | @declare f sts hf hk =>
    have hcode : ({ line := n } : Stub).codeLines = [] := rfl
    simp only [Scanner.readdress, List.map_cons, Stub.readdress_declared hf hcode, ← hshape]
    refine .declare (hshape ▸ hf) fun st hst => ?_
    rw [List.head?_map] at hst
    obtain ⟨st', hst', rfl⟩ := Option.map_eq_some_iff.mp hst
    rw [Stub.readdress_kind]
    exact hk st' hst'

theorem hasDeclarations_of_steps {ls : List Text} (h : steps file {} 1 ls = .ok s) : s.HasDeclarations :=
  steps_induction (P := fun _ s => s.HasDeclarations) ⟨List.forall_mem_nil _, nofun⟩
    (fun _ _ _ _ hs hstep => hasDeclarations_step hstep hs) h

/-- Lines with other receivers are scanned to the same stubs with other receivers. -/
theorem steps_readdressed (hc : IsWord c) {ls : List Text} (h : steps file {} 1 ls = .ok s) :
    steps file {} 1 (Reading.readdressed c ls) = .ok (s.readdress c) := by
  -- the places where the lines are read come from the scan as well
  suffices hall : s.HasDeclarations ∧ Reading.Accounts ls s ∧
      steps file {} 1 (Reading.readdressed c ls) = .ok (s.readdress c) from hall.2.2
  refine steps_induction (P := fun ls s => s.HasDeclarations ∧ Reading.Accounts ls s ∧
    steps file {} 1 (Reading.readdressed c ls) = .ok (s.readdress c)) ?_ ?_ h
  · exact ⟨⟨List.forall_mem_nil _, nofun⟩, Reading.accounts_nil, rfl⟩
  · intro read l s s' ⟨hdecl, hacc, hread⟩ hstep
    refine ⟨hasDeclarations_step hstep hdecl, Reading.accounts_step hstep hacc, ?_⟩
    have hline := hstep.readdress hc hdecl
    rw [hacc.place] at hline
    have hlength : (Reading.readdressed c read).length = read.length := by
      rw [Reading.readdressed, List.length_map, ← List.length_map, Reading.map_line_all]
    have hconcat : Reading.readdressed c (read ++ [l]) =
        Reading.readdressed c read ++ [Reading.readdress c ⟨Reading.behind read, l⟩] := by
      rw [Reading.readdressed, Reading.all_concat, List.map_append]
      rfl
    have hn : (1 : Int) + (read.length : Int) = read.length + 1 := Int.add_comm _ _
    rw [hconcat, steps_append, hread, hlength]
    simp only [Except.bind, hn]
    exact steps_cons hline []

theorem finish_readdress {stubs : List Stub} (h : s.finish file = .ok stubs) :
    (s.readdress c).finish file = .ok (stubs.map (Stub.readdress c)) := by
  obtain ⟨hmode, rfl, hknown, first, rest, hstubs, hclass⟩ := finish_eq_ok_iff.mp h
  refine finish_eq_ok_iff.mpr
    ⟨hmode, List.map_reverse, ?_, first.readdress c, rest.map (Stub.readdress c), ?_, ?_⟩
  · intro st hst
    obtain ⟨st', hst', rfl⟩ := List.mem_map.mp hst
    rw [Stub.readdress_kind]
    exact hknown st' hst'
  · rw [hstubs, List.map_cons]
  · rwa [Stub.readdress_kind]

end Scanner

/-! ## The same declaration -/

namespace Style

variable (y : Style) (file : Text) (c : Text)

/-- No code of a method is written. -/
theorem members_readdress (name : Text) (closed : Bool) (ss : List Stub) :
    y.members file name closed (ss.map (Stub.readdress c)) = y.members file name closed ss := by
  induction ss generalizing closed with
  | nil => rfl
  | cons st ss ih =>
    rw [List.map_cons, members, members, Stub.readdress_kind]
    cases hk : st.kind with
    | methodDecl =>
      have hst : y.method (st.readdress c) = y.method st := rfl
      simp only [hst, ih]
    | classDecl | variableDecl | unknown =>
      have hst : st.readdress c = st := Stub.readdress_of_ne (by simp [hk]) c
      simp only [hst, ih]

theorem render_readdress (ss : List Stub) (h : ∀ st ∈ ss.head?, st.kind = .classDecl) :
    y.render file (ss.map (Stub.readdress c)) = y.render file ss := by
  cases ss with
  | nil => rfl
  | cons st ss =>
    have hst : st.readdress c = st := Stub.readdress_of_ne (by simp [h st rfl]) c
    rw [List.map_cons, hst, render, render, members_readdress]

end Style

theorem summarize_readdress (file c : Text) (ss : List Stub) :
    summarize file (ss.map (Stub.readdress c)) = summarize file ss := by
  have hnames : ∀ names st, addClassName names (Stub.readdress c st) = addClassName names st :=
    fun _ _ => rfl
  simp only [summarize, List.foldl_map, hnames, List.countP_map, Function.comp_def, Stub.readdress_kind]

/-- Files whose stubs differ in the receivers of methods only have the same declaration. -/
theorem convertFile_readdress {m : TypeTable} {y : Style} {file content content' c : Text} {stubs : List Stub}
    (h : scan file content = .ok stubs) (h' : scan file content' = .ok (stubs.map (Stub.readdress c))) :
    convertFile m y file content' = convertFile m y file content := by
  obtain ⟨s, -, hfinish⟩ := Scanner.scan_eq_ok_iff.mp h
  obtain ⟨-, -, -, first, rest, rfl, hclass⟩ := Scanner.finish_eq_ok_iff.mp hfinish
  have hassembled : (Stub.reorder ((first :: rest).map (Stub.readdress c))).map (Stub.annotate m) =
      ((Stub.reorder (first :: rest)).map (Stub.annotate m)).map (Stub.readdress c) := by
    rw [← Stub.map_reorder (Stub.readdress_kind c), List.map_map, List.map_map]
    rfl
  have hfirst : ∀ st ∈ ((Stub.reorder (first :: rest)).map (Stub.annotate m)).head?,
      st.kind = .classDecl := by
    rw [Stub.reorder_cons]
    rintro _ ⟨⟩
    exact hclass
  have hassemble : assemble m file content = .ok ((Stub.reorder (first :: rest)).map (Stub.annotate m)) := by
    rw [assemble, h]
    rfl
  have hassemble' : assemble m file content' =
      .ok (((Stub.reorder (first :: rest)).map (Stub.annotate m)).map (Stub.readdress c)) := by
    rw [assemble, h', ← hassembled]
    rfl
  simp only [convertFile, hassemble, hassemble', bind, Except.bind, Style.render_readdress _ _ _ _ hfirst,
    summarize_readdress]

namespace Reading

variable {file content c : Text} {stubs : List Stub}

theorem sourceLines_readdressContent (hc : IsWord c) (content : Text) :
    sourceLines (readdressContent c content) = readdressed c (sourceLines content) := by
  have hne : readdressed c (sourceLines content) ≠ [] := by
    intro hnil
    have hnone : sourceLines content = [] := by
      rw [← map_line_all .outside (sourceLines content), List.map_eq_nil_iff.mp hnil, List.map_nil]
    exact Text.splitOn_ne_nil _ _ (List.map_eq_nil_iff.mp hnone)
  refine sourceLines_joinWith hne fun l hl => ?_
  obtain ⟨⟨o, l⟩, hr, rfl⟩ := List.mem_map.mp hl
  have hmem : l ∈ sourceLines content := by
    rw [← map_line_all .outside (sourceLines content)]
    exact List.mem_map_of_mem hr
  have hline := isLine_of_mem_sourceLines hmem
  cases o with
  | outside => exact Line.isLine_readdress hc hline
  | inDoc | inLiteral => exact hline

theorem scan_readdressContent (hc : IsWord c) (h : scan file content = .ok stubs) :
    scan file (readdressContent c content) = .ok (stubs.map (Stub.readdress c)) := by
  obtain ⟨s, hs, hfinish⟩ := Scanner.scan_eq_ok_iff.mp h
  refine Scanner.scan_eq_ok_iff.mpr ⟨s.readdress c, ?_, Scanner.finish_readdress hfinish⟩
  rw [sourceLines_readdressContent hc]
  exact Scanner.steps_readdressed hc hs

theorem hasDeclaration_of_scan (h : scan file content = .ok stubs) : ∀ st ∈ stubs, st.HasDeclaration := by
  obtain ⟨s, hs, hfinish⟩ := Scanner.scan_eq_ok_iff.mp h
  obtain ⟨-, rfl, -⟩ := Scanner.finish_eq_ok_iff.mp hfinish
  exact fun st hst => (Scanner.hasDeclarations_of_steps hs).stubs st (List.mem_reverse.mp hst)

/-- **Receivers are words, and no more is asked of them.** The code of a method is one line, its receiver and
then the name of the method; a statement that gives the class a parent is its receiver and then the parent. With
any other word in the place of all receivers, such as the name of the class, the file has the same stubs but for
the receivers of methods, and the same declaration. -/
theorem receivers_of_scan (h : scan file content = .ok stubs) :
    (∀ st ∈ stubs, st.kind = .methodDecl → ∃ r u, IsWord r ∧
      st.codeLines = [r ++ (".prototype." ++ (st.methodName ++ u))] ∧
        ∀ c, (st.readdress c).codeLines = [c ++ (".prototype." ++ (st.methodName ++ u))]) ∧
    (∀ x ∈ all .outside (sourceLines content), ∀ p ∈ x.parent?, ∃ r u, IsWord r ∧
      x.line = r ++ (".prototype = new " ++ (p ++ u)) ∧
        ∀ c, x.readdress c = c ++ (".prototype = new " ++ (p ++ u))) ∧
    (∀ first ∈ stubs.head?, IsWord first.className) ∧
    ∀ c, IsWord c → scan file (readdressContent c content) = .ok (stubs.map (Stub.readdress c)) ∧
      ∀ m y, convertFile m y file (readdressContent c content) = convertFile m y file content := by
  refine ⟨fun st hst hk => ?_, ?_, ?_, fun c hc => ?_⟩
  · obtain ⟨l, ps, hcode, hshape⟩ := (hasDeclaration_of_scan h st hst).method hk
    obtain ⟨r, u, hr, rfl⟩ := Line.receiver_of_method? (Line.method?_of_classify hshape)
    refine ⟨r, u, hr, hcode, fun c => ?_⟩
    simp only [Stub.readdress, if_pos hk, hcode]
    exact congrArg ([·]) (Line.readdress_of_methodLine hr hshape c)
  · rintro ⟨o, l⟩ - p hp
    simp only [parent?, Option.mem_def] at hp
    split at hp
    · next q hshape =>
      obtain rfl : q = p := Option.some.inj hp
      obtain ⟨r, u, hr, rfl⟩ := Line.receiver_of_extension? (Line.extension?_of_classify hshape)
      exact ⟨r, u, hr, rfl, Line.readdress_of_extension hr hshape⟩
    · cases hp
  · obtain ⟨s, -, hfinish⟩ := Scanner.scan_eq_ok_iff.mp h
    obtain ⟨-, -, -, first, rest, rfl, hclass⟩ := Scanner.finish_eq_ok_iff.mp hfinish
    rintro _ ⟨⟩
    exact (Scanner.complete_of_scan h first List.mem_cons_self).2.named hclass
  · have hscan := scan_readdressContent hc h
    exact ⟨hscan, fun m y => convertFile_readdress h hscan⟩

/-- A file with statements about other words than the name of its class. -/
def strangers : Text :=
  ("function A() \x7b\x7d\nB.prototype = new C();\n" : Text) ++
    ("D.prototype.f = function(x) \x7b\x7d;" : Text)

/-- Its stubs: the class has a parent and a method. -/
def strangersStubs : List Stub :=
  [{ line := 1, kind := .classDecl, codeLines := ["function A() \x7b\x7d"], className := "A", parent := "C" },
    { line := 3, kind := .methodDecl, codeLines := ["D.prototype.f = function(x) \x7b\x7d;"], methodName := "f",
      params := ["x"] }]

theorem receivers_of_scan_strangers :
    scan "A.js" strangers = .ok strangersStubs ∧
      (∀ st ∈ strangersStubs, st.kind = .methodDecl → ∃ r u, IsWord r ∧
        st.codeLines = [r ++ (".prototype." ++ (st.methodName ++ u))] ∧
          ∀ c, (st.readdress c).codeLines = [c ++ (".prototype." ++ (st.methodName ++ u))]) ∧
      scan "A.js" (("function A() \x7b\x7d\nA.prototype = new C();\n" : Text) ++
        ("A.prototype.f = function(x) \x7b\x7d;" : Text)) =
          .ok (strangersStubs.map (Stub.readdress "A")) := by
  have hscan : scan "A.js" strangers = .ok strangersStubs := by decide +kernel
  have hcontent : readdressContent "A" strangers =
      ("function A() \x7b\x7d\nA.prototype = new C();\n" : Text) ++
        ("A.prototype.f = function(x) \x7b\x7d;" : Text) := by
    decide +kernel
  obtain ⟨hmethods, -, -, hreaddress⟩ := receivers_of_scan hscan
  exact ⟨hscan, hmethods, hcontent ▸ (hreaddress "A" (by decide)).1⟩

/-- Whether all statements of a file are about its class: the receiver, which is what stands in front of the
first dot, is the name of the class in the code of all methods and in all lines that give a parent. -/
def OwnReceivers (content : Text) (stubs : List Stub) : Prop :=
  ∀ first ∈ stubs.head?,
    (∀ st ∈ stubs, st.kind = .methodDecl → ∀ l ∈ st.codeLines, l.takeWhile (· ≠ 0x2e) = first.className) ∧
      ∀ x ∈ all .outside (sourceLines content), x.parent?.isSome →
        x.line.takeWhile (· ≠ 0x2e) = first.className

instance (content : Text) (stubs : List Stub) : Decidable (OwnReceivers content stubs) :=
  inferInstanceAs (Decidable (∀ first ∈ stubs.head?, _ ∧ _))

/-- Statements about other words count as well. -/
theorem not_ownReceivers_strangers :
    scan "A.js" strangers = .ok strangersStubs ∧ ¬OwnReceivers strangers strangersStubs := by
  decide +kernel

end Reading

end StubDecl
