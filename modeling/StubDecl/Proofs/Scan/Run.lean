import StubDecl.Proofs.Scan.Step

/-!
# Scanning known lines

The converse of `Scanner.step_ok`: a line that may change a scanner in some way does so
(`Scanner.Step.step_eq`). From this the lines of a whole block are read at once: `Scanner.steps_doc`
for a doc block, `Scanner.steps_declare` for a declaration, documented or not, and
`Scanner.steps_literal` for a literal.
-/

namespace StubDecl

/-- A doc block around given lines. -/
def docComment (ls : List Text) : List Text := "/**" :: (ls ++ [(" */" : Text)])

namespace Scanner

variable {file line : Text} {n : Int} {s s' : Scanner}

/-! ## One line -/

/-- Where a declaration goes, as an equation. -/
theorem step_of_complete {f : Stub → Stub} {sts : List Stub}
    (hc : (Line.classify line).complete? = some f) :
    step file ⟨.idle, sts⟩ n line =
      .ok { declare n line f ⟨.idle, sts⟩ with mode := (Line.classify line).modeAfter n } := by
  rw [step_idle (isTrash_of_complete? hc) rfl, stepIdle_of_complete hc]

/-- A line does what it may do. -/
theorem Step.step_eq (h : Step n line s s') : step file s n line = .ok s' := by
  cases h with
  | trash ht => exact step_trash ht
  | docLine ht he | docEnd ht he | codeLine ht he | codeEnd ht he =>
    rw [step, if_neg (by simp [ht])]
    simp only [he, if_true, Bool.false_eq_true, if_false]
    rfl
  | docStart hc ho | oneLineDoc hc ho =>
    rw [step_idle (isTrash_eq_false (by simp [hc])) rfl, stepIdle, hc]
    simp only [ho, if_true, Bool.false_eq_true, if_false]
    rfl
  | extension hc hk =>
    rw [step_idle (isTrash_eq_false (by simp [hc])) rfl, stepIdle_extension hc hk]
  | complete hc hk =>
    rw [step_of_complete hc]
    simp only [Scanner.declare, forDeclaration, if_pos hk, mapCurrent]
  | @declare f sts hc hk =>
    rw [step_of_complete hc]
    have hnew : forDeclaration n ⟨.idle, sts⟩ = ⟨.idle, { line := n } :: sts⟩ := by
      cases sts with
      | nil => rfl
      | cons st sts => simp only [forDeclaration, openStub, if_neg (hk st rfl)]
    simp only [Scanner.declare, hnew, mapCurrent]

theorem steps_cons (h : Step n line s s') (ls : List Text) :
    steps file s n (line :: ls) = steps file s' (n + 1) ls := by
  rw [steps, h.step_eq]

/-! ## The lines of a block -/

/-- Lines that all leave open what is open go to the newest stub, one after the other. -/
theorem steps_inside {m : Mode} {add : Text → Stub → Stub} {sts : List Stub} {ls : List Text}
    (h : ∀ l ∈ ls, ∀ n st, Step n l ⟨m, st :: sts⟩ ⟨m, add l st :: sts⟩) (st : Stub) (n : Int)
    (rest : List Text) :
    steps file ⟨m, st :: sts⟩ n (ls ++ rest) =
      steps file ⟨m, ls.foldl (fun st l => add l st) st :: sts⟩ (n + ls.length) rest := by
  induction ls generalizing st n with
  | nil => simp
  | cons l ls ih =>
    obtain ⟨hl, hls⟩ := List.forall_mem_cons.mp h
    have hn : n + 1 + (ls.length : Int) = n + ((l :: ls).length : Int) := by
      rw [List.length_cons]
      omega
    rw [List.cons_append, steps_cons (hl n st), ih hls, hn, List.foldl_cons]

theorem foldl_withDoc (ls : List Text) (st : Stub) :
    ls.foldl (fun st l => st.withDoc l) st = { st with docLines := st.docLines ++ ls } := by
  induction ls generalizing st with
  | nil => simp
  | cons l ls ih => rw [List.foldl_cons, ih]; simp [Stub.withDoc]

theorem foldl_withCode (ls : List Text) (st : Stub) :
    ls.foldl (fun st l => st.withCode l) st = { st with codeLines := st.codeLines ++ ls } := by
  induction ls generalizing st with
  | nil => simp
  | cons l ls ih => rw [List.foldl_cons, ih]; simp [Stub.withCode]

/-- A doc block opens a stub that waits for its declaration. -/
theorem steps_doc {ls : List Text}
    (h : ∀ l ∈ ls, Line.isTrash l = false ∧ Line.isDocEnd l = false) (sts : List Stub) (n : Int)
    (rest : List Text) :
    steps file ⟨.idle, sts⟩ n (docComment ls ++ rest) =
      steps file ⟨.idle, { line := n, docLines := docComment ls } :: sts⟩
        (n + (docComment ls).length) rest := by
  have hopen : Step n "/**" ⟨.idle, sts⟩ ⟨.inDoc n, { line := n, docLines := ["/**"] } :: sts⟩ :=
    .docStart (by decide) (by decide)
  have hinside : ∀ l ∈ ls, ∀ k st,
      Step k l ⟨.inDoc n, st :: sts⟩ ⟨.inDoc n, st.withDoc l :: sts⟩ :=
    fun l hl k st => .docLine (h l hl).1 (h l hl).2
  have hclose : ∀ k st,
      Step k " */" ⟨.inDoc n, st :: sts⟩ ⟨.idle, st.withDoc " */" :: sts⟩ :=
    fun k st => .docEnd (by decide) (by decide)
  have hn : n + 1 + (ls.length : Int) + 1 = n + ((docComment ls).length : Int) := by
    simp only [docComment, List.length_cons, List.length_append, List.length_nil]
    omega
  have hlines : docComment ls ++ rest = ("/**" : Text) :: (ls ++ (" */" : Text) :: rest) := by
    simp only [docComment, List.cons_append, List.append_assoc, List.nil_append]
  rw [hlines, steps_cons hopen, steps_inside hinside, foldl_withDoc, steps_cons (hclose _ _), hn]
  rfl

/-- What may stand in front of a declaration: nothing, or a doc block. -/
def IsDoc (doc : List Text) : Prop :=
  doc = [] ∨ ∃ ls, doc = docComment ls ∧ ∀ l ∈ ls, Line.isTrash l = false ∧ Line.isDocEnd l = false

/-- A declaration of one line, with its doc block. -/
theorem steps_declare {shape : LineShape} {f : Stub → Stub} {doc : List Text} {sts : List Stub}
    (hdoc : IsDoc doc) (hshape : Line.classify line = shape) (hc : shape.complete? = some f)
    (hopen : shape ≠ .codeStart) (hk : ∀ st ∈ sts.head?, st.kind ≠ .unknown) (n : Int)
    (rest : List Text) :
    steps file ⟨.idle, sts⟩ n (doc ++ [line] ++ rest) =
      steps file ⟨.idle, (f { line := n, docLines := doc }).withCode line :: sts⟩
        (n + (doc ++ [line]).length) rest := by
  subst hshape
  have hmode : ∀ k, (Line.classify line).modeAfter k = .idle := fun k => if_neg hopen
  have hn : n + ((doc ++ [line]).length : Int) = n + doc.length + 1 := by
    rw [List.length_append, List.length_singleton]
    omega
  rw [List.append_assoc, List.singleton_append, hn]
  obtain rfl | ⟨ls, rfl, hls⟩ := hdoc
  · have hzero : n + (([] : List Text).length : Int) = n := Int.add_zero n
    rw [List.nil_append, steps_cons (.declare hc hk), hmode, hzero]
  · rw [steps_doc hls, steps_cons (.complete hc rfl), hmode]

/-- A literal of several lines. -/
theorem steps_literal {ls : List Text} {sts : List Stub} (hopen : Line.classify line = .codeStart)
    (h : ∀ l ∈ ls, Line.isTrash l = false ∧ Line.isCodeEnd l = false)
    (hk : ∀ st ∈ sts.head?, st.kind ≠ .unknown) (n : Int) (rest : List Text) :
    let code := line :: (ls ++ [("\x7d;" : Text)])
    steps file ⟨.idle, sts⟩ n (code ++ rest) =
      steps file ⟨.idle, { line := n, kind := .variableDecl, codeLines := code } :: sts⟩
        (n + code.length) rest := by
  intro code
  have hdecl : (Line.classify line).complete? = some fun st => { st with kind := .variableDecl } := by
    rw [hopen]
    rfl
  have hmode : (Line.classify line).modeAfter n = .inCode n := by
    rw [hopen]
    rfl
  have hinside : ∀ l ∈ ls, ∀ k st,
      Step k l ⟨.inCode n, st :: sts⟩ ⟨.inCode n, st.withCode l :: sts⟩ :=
    fun l hl k st => .codeLine (h l hl).1 (h l hl).2
  have hclose : ∀ k st,
      Step k "\x7d;" ⟨.inCode n, st :: sts⟩ ⟨.idle, st.withCode "\x7d;" :: sts⟩ :=
    fun k st => .codeEnd (by decide) (by decide)
  have hn : n + 1 + (ls.length : Int) + 1 = n + (code.length : Int) := by
    simp only [code, List.length_cons, List.length_append, List.length_nil]
    omega
  have hlines : code ++ rest = line :: (ls ++ ("\x7d;" : Text) :: rest) := by
    simp only [code, List.cons_append, List.append_assoc, List.nil_append]
  rw [hlines, steps_cons (.declare hdecl hk), hmode, steps_inside hinside, foldl_withCode,
    steps_cons (hclose _ _), hn]
  rfl

end Scanner

end StubDecl
