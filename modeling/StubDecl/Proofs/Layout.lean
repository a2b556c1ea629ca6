import StubDecl.Proofs.Declaration
import StubDecl.Proofs.Scan.Declared

/-!
# The layout of a declaration

The declaration block of a file as a list of lines, said of the stubs in source order: the class with
its doc block, the methods, a closing brace, the variables as they were written, and an empty line
(`Style.layout`). `Style.render_of_assemble` says that every file that is assembled with one class is
rendered so.
-/

namespace StubDecl

/-- Lines, each followed by a newline. -/
def Text.ofLines (ls : List Text) : Text := ls.flatMap (· ++ "\n")

@[simp] theorem Text.ofLines_nil : ofLines [] = [] := rfl

@[simp] theorem Text.ofLines_cons (l : Text) (ls : List Text) :
    ofLines (l :: ls) = l ++ "\n" ++ ofLines ls := rfl

@[simp] theorem Text.ofLines_append (ls ls' : List Text) :
    ofLines (ls ++ ls') = ofLines ls ++ ofLines ls' := List.flatMap_append

theorem Text.ofLines_flatMap {α : Type} (g : α → List Text) (xs : List α) :
    ofLines (xs.flatMap g) = xs.flatMap fun x => ofLines (g x) := List.flatMap_assoc

/-- Lines that are joined need a newline behind the last one only. -/
theorem Text.joinWith_newline {ls : List Text} (h : ls ≠ []) :
    joinWith "\n" ls ++ "\n" = ofLines ls := by
  induction ls with
  | nil => exact absurd rfl h
  | cons l ls ih =>
    cases ls with
    | nil => simp [joinWith]
    | cons l' ls => rw [joinWith, List.append_assoc, ih (List.cons_ne_nil l' ls), ← ofLines_cons]

/-- The lines that a text starts with are its first lines. -/
theorem sourceLines_ofLines_append {ls : List Text} (h : ∀ l ∈ ls, IsLine l) (t : Text) :
    sourceLines (Text.ofLines ls ++ t) = ls ++ sourceLines t := by
  induction ls with
  | nil => rfl
  | cons l ls ih =>
    obtain ⟨hl, hls⟩ := List.forall_mem_cons.mp h
    have hcut : Text.ofLines (l :: ls) ++ t = l ++ 0x0a :: (Text.ofLines ls ++ t) := by
      rw [Text.ofLines_cons, List.append_assoc, List.append_assoc]
      rfl
    rw [hcut, sourceLines, Text.splitOn_append_sep hl.1, List.map_cons, hl.2, List.cons_append]
    exact congrArg _ (ih hls)

namespace Style

variable (m : TypeTable) (y : Style)

/-! ## Lines of the members -/

/-- The lines of a method: its doc block and its signature behind the margin, and an empty line. The
types in the signature are those of the doc block. -/
def methodLines (s : Stub) : List Text :=
  s.docLines.map (y.margin ++ ·) ++
    [y.margin ++ s.methodName ++ y.signature (s.annotate m) ++ ";", []]

/-- The lines of a variable: an empty line, and its code as it was written. -/
def variableLines (s : Stub) : List Text := [] :: s.codeLines

/-- The lines of the declaration of the class `c`. -/
def layout (c : Stub) (methods vars : List Stub) : List Text :=
  c.docLines ++ classSignature c ::
    (methods.flatMap (y.methodLines m) ++ ("\x7d" : Text) :: (vars.flatMap variableLines ++ [[]]))

theorem docBlock_eq (margin : Text) (ls : List Text) :
    docBlock margin ls = Text.ofLines (ls.map (margin ++ ·)) := by
  rw [docBlock, Text.ofLines, List.flatMap_map]

theorem method_annotate (s : Stub) :
    y.method (s.annotate m) = Text.ofLines (y.methodLines m s) := by
  rw [method, docBlock_eq, methodLines, Text.ofLines_append]
  simp only [Text.ofLines_cons, Text.ofLines_nil, List.append_assoc]
  rfl

theorem behind_of_code {s : Stub} (hk : s.kind = .variableDecl) (hcode : s.codeLines ≠ []) :
    s.behind = Text.ofLines (variableLines s) := by
  have hv : s.kind.isVariable = true := by rw [hk]; rfl
  rw [Stub.behind, if_pos hv, List.append_assoc, Text.joinWith_newline hcode]
  rfl

/-! ## The whole declaration -/

/-- The stubs that a file with one class is assembled to, rendered. -/
theorem render_layout (file : Text) {c : Stub} {ss : List Stub} (hc : c.kind = .classDecl)
    (h : ∀ s ∈ ss, s.kind = .methodDecl ∨ s.kind = .variableDecl)
    (hcode : ∀ s ∈ ss, s.codeLines ≠ []) :
    y.render file ((Stub.reorder (c :: ss)).map (Stub.annotate m)) =
      .ok (Text.ofLines (y.layout m c (ss.filter (·.kind.isMethod)) (ss.filter (·.kind.isVariable)))) := by
  have hkinds : ∀ s ∈ ss.map (Stub.annotate m), s.kind = .methodDecl ∨ s.kind = .variableDecl := by
    intro s hs
    obtain ⟨t, ht, rfl⟩ := List.mem_map.mp hs
    exact h t ht
  have hinside : (ss.map (Stub.annotate m)).flatMap y.inside =
      Text.ofLines ((ss.filter (·.kind.isMethod)).flatMap (y.methodLines m)) := by
    rw [Text.ofLines_flatMap, Stub.flatMap_filter, List.flatMap_map]
    refine List.flatMap_congr fun s hs => ?_
    have hkind : (s.annotate m).kind = s.kind := rfl
    rw [inside, hkind]
    obtain hk | hk := h s hs <;> rw [hk]
    · exact method_annotate m y s
    · rfl
  have hbehind : (ss.map (Stub.annotate m)).flatMap Stub.behind =
      Text.ofLines ((ss.filter (·.kind.isVariable)).flatMap variableLines) := by
    rw [Text.ofLines_flatMap, Stub.flatMap_filter, List.flatMap_map]
    refine List.flatMap_congr fun s hs => ?_
    have hsame : (s.annotate m).behind = s.behind := rfl
    rw [hsame]
    obtain hk | hk := h s hs
    · rw [Stub.behind, hk]
      rfl
    · rw [behind_of_code hk (hcode s hs), hk]
      rfl
  have hclass : (c.annotate m).kind = .classDecl := hc
  have hdoc : (c.annotate m).docLines.map (([] : Text) ++ ·) = c.docLines := List.map_id c.docLines
  rw [Stub.map_annotate_reorder, List.map_cons, y.render_reorder file hclass hkinds, hinside, hbehind,
    docBlock_eq, hdoc, layout]
  simp only [Text.ofLines_append, Text.ofLines_cons, Text.ofLines_nil, List.append_assoc]
  rfl

end Style

namespace Stub

variable {c : Stub} {ss : List Stub}

/-- Beside a single class there are methods and variables only. -/
theorem kinds_of_oneClass (hc : c.kind = .classDecl) (hone : (c :: ss).countP (·.kind.isClass) = 1)
    (hknown : ∀ s ∈ ss, s.kind ≠ .unknown) :
    ∀ s ∈ ss, s.kind = .methodDecl ∨ s.kind = .variableDecl := by
  have hclass : c.kind.isClass = true := by rw [hc]; rfl
  have hno : ss.countP (·.kind.isClass) = 0 := by
    rw [List.countP_cons, if_pos hclass] at hone
    omega
  intro s hs
  have hs' := List.countP_eq_zero.mp hno s hs
  cases hk : s.kind with
  | unknown => exact absurd hk (hknown s hs)
  | classDecl =>
    rw [hk] at hs'
    exact absurd rfl hs'
  | methodDecl => exact .inl rfl
  | variableDecl => exact .inr rfl

/-- Methods and variables are all there is. -/
theorem methods_append_variables_perm
    (h : ∀ s ∈ ss, s.kind = .methodDecl ∨ s.kind = .variableDecl) :
    (ss.filter (·.kind.isMethod) ++ ss.filter (·.kind.isVariable)).Perm ss := by
  have hrest : ss.filter (·.kind.isVariable) = ss.filter (!·.kind.isMethod) := by
    refine List.filter_congr fun s hs => ?_
    obtain hk | hk := h s hs <;> rw [hk] <;> rfl
  rw [hrest]
  exact List.filter_append_perm _ ss

end Stub

namespace Style

/-- **The layout of a declaration.** A file that is assembled with one class is rendered, and its block
consists of the doc block and the signature of the class, the methods with their doc blocks in source
order, the closing brace, the variables in source order, and an empty line. Every stub of the file but
the class is one of these methods or variables, and the summary has the names of the class and the
numbers of both. -/
theorem render_of_assemble (m : TypeTable) (y : Style) {file content : Text} {assembled : List Stub}
    (h : assemble m file content = .ok assembled)
    (hone : assembled.countP (·.kind.isClass) = 1) :
    ∃ c ss, scan file content = .ok (c :: ss) ∧ c.kind = .classDecl ∧
      (ss.filter (·.kind.isMethod) ++ ss.filter (·.kind.isVariable)).Perm ss ∧
      y.render file assembled =
        .ok (Text.ofLines (y.layout m c (ss.filter (·.kind.isMethod)) (ss.filter (·.kind.isVariable)))) ∧
      summarize file assembled =
        { path := file
          className := c.className
          parent := c.parent
          methodCount := Int64.ofNat (ss.filter (·.kind.isMethod)).length
          variableCount := Int64.ofNat (ss.filter (·.kind.isVariable)).length } := by
  unfold assemble at h
  cases hscan : scan file content with
  | error f =>
    rw [hscan] at h
    cases h
  | ok stubs =>
    rw [hscan] at h
    obtain rfl : (Stub.reorder stubs).map (Stub.annotate m) = assembled := Except.ok.inj h
    obtain ⟨s, -, hfinish⟩ := Scanner.scan_eq_ok_iff.mp hscan
    obtain ⟨-, -, -, c, ss, rfl, hc⟩ := Scanner.finish_eq_ok_iff.mp hfinish
    obtain ⟨⟨-, hcomplete⟩, hss⟩ := List.forall_mem_cons.mp (Scanner.complete_of_scan hscan)
    have hsame : ((Stub.reorder (c :: ss)).map (Stub.annotate m)).countP (·.kind.isClass) =
        (c :: ss).countP (·.kind.isClass) := by
      rw [List.countP_map]
      exact (Stub.reorder_perm _).countP_eq _
    have hkinds := Stub.kinds_of_oneClass hc (hsame ▸ hone) fun s hs => (hss s hs).1
    have hclass : (c.annotate m).kind = .classDecl := hc
    refine ⟨c, ss, rfl, hc, Stub.methods_append_variables_perm hkinds,
      y.render_layout m file hc hkinds fun s hs => (hss s hs).2.code (hss s hs).1, ?_⟩
    rw [Stub.map_annotate_reorder, List.map_cons, summarize_reorder file hclass (hcomplete.named hc).1,
      List.countP_map, List.countP_map, List.countP_eq_length_filter, List.countP_eq_length_filter]
    rfl

/-- A file with a variable in front of a method, and with a parent behind both. -/
def mixedMembers : Text :=
  ("/** A clip. */\nfunction Clip() \x7b\x7d\nvar length = 4;\n" : Text) ++
    ("/**\n * @param \x7bint\x7d bars\n */\nClip.prototype.loop = function(bars) \x7b\x7d;\n" : Text) ++
    ("Clip.prototype = new Node();" : Text)

theorem render_of_assemble_mixedMembers :
    ∃ assembled c ss, assemble {} "Clip.js" mixedMembers = .ok assembled ∧
      assembled.countP (·.kind.isClass) = 1 ∧ scan "Clip.js" mixedMembers = .ok (c :: ss) ∧
      Text.ofLines (layout {} {} c (ss.filter (·.kind.isMethod)) (ss.filter (·.kind.isVariable))) =
        Text.ofLines
          ["/** A clip. */", "declare class Clip extends Node \x7b", "    /**",
            "     * @param \x7bint\x7d bars", "     */", "    loop(bars?: number): void;", "", "\x7d", "",
            "var length = 4;", ""] ∧
      summarize "Clip.js" assembled =
        { path := "Clip.js", className := "Clip", parent := "Node", methodCount := 1
          variableCount := 1 } := by
  have hfacts : ∃ assembled ∈ (assemble {} "Clip.js" mixedMembers).toOption,
      assembled.countP (·.kind.isClass) = 1 ∧
        render {} "Clip.js" assembled = .ok (Text.ofLines
          ["/** A clip. */", "declare class Clip extends Node \x7b", "    /**",
            "     * @param \x7bint\x7d bars", "     */", "    loop(bars?: number): void;", "", "\x7d", "",
            "var length = 4;", ""]) ∧
        summarize "Clip.js" assembled =
          { path := "Clip.js", className := "Clip", parent := "Node", methodCount := 1
            variableCount := 1 } := by
    decide +kernel
  obtain ⟨assembled, hsome, hone, hblock, hsummary⟩ := hfacts
  cases h : assemble {} "Clip.js" mixedMembers with
  | error f =>
    rw [h] at hsome
    cases hsome
  | ok stubs =>
    rw [h] at hsome
    obtain rfl : stubs = assembled := Option.some.inj hsome
    obtain ⟨c, ss, hscan, -, -, hrender, -⟩ := render_of_assemble {} {} h hone
    exact ⟨stubs, c, ss, rfl, hone, hscan, Except.ok.inj (hrender.symm.trans hblock), hsummary⟩

end Style

end StubDecl
