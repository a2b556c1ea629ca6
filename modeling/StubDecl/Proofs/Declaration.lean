import Mathlib.Data.List.Basic
import StubDecl.Declaration

/-!
# Declarations in source order

The stubs of a file are rendered in another order than that of the source. `Style.render_reorder`
says what a class with methods and variables is rendered as, `summarize_reorder` what the summary is
of a file that starts with a class. Both say what each stub adds, in source order.
-/

namespace StubDecl

/-- A block and a summary come from the stubs of the file. -/
theorem convertFile_eq_ok {m : TypeTable} {y : Style} {file content block : Text} {s : Summary}
    (h : convertFile m y file content = .ok (block, s)) :
    ∃ stubs, assemble m file content = .ok stubs ∧ y.render file stubs = .ok block ∧
      s = summarize file stubs := by
  rw [convertFile] at h
  obtain ⟨stubs, hassemble, h⟩ := Outcome.bind_eq_ok h
  obtain ⟨text, hrender, h⟩ := Outcome.bind_eq_ok h
  cases h
  exact ⟨stubs, hassemble, hrender, rfl⟩

namespace Stub

/-- Reordering changes the order only. -/
theorem reorder_perm (ss : List Stub) : (reorder ss).Perm ss := by
  cases ss with
  | nil => exact .refl _
  | cons s ss =>
    have hperm := List.filter_append_perm (fun st : Stub => st.kind.isVariable) ss
    rw [reorder_cons]
    exact (List.perm_append_comm.trans hperm).cons s

/-- What leaves the kinds of stubs alone commutes with reordering them. -/
theorem map_reorder {f : Stub → Stub} (hf : ∀ s, (f s).kind = s.kind) (ss : List Stub) :
    (reorder ss).map f = reorder (ss.map f) := by
  cases ss with
  | nil => rfl
  | cons s ss =>
    simp only [reorder_cons, List.map_cons, List.map_append, List.filter_map, Function.comp_def, hf]

theorem map_annotate_reorder (m : TypeTable) (ss : List Stub) :
    (reorder ss).map (annotate m) = reorder (ss.map (annotate m)) :=
  map_reorder (f := annotate m) (fun _ => rfl) ss

theorem flatMap_filter (p : Stub → Bool) (g : Stub → Text) (ss : List Stub) :
    (ss.filter p).flatMap g = ss.flatMap fun s => if p s then g s else [] := by
  induction ss with
  | nil => rfl
  | cons s ss ih =>
    by_cases hp : p s = true
    · rw [List.filter_cons_of_pos hp, List.flatMap_cons, List.flatMap_cons, ih, if_pos hp]
    · rw [List.filter_cons_of_neg hp, List.flatMap_cons, ih, if_neg hp, List.nil_append]

/-- What a variable puts behind the class. -/
def behind (s : Stub) : Text :=
  if s.kind.isVariable then "\n" ++ Text.joinWith "\n" s.codeLines ++ "\n" else []

end Stub

namespace Style

variable (y : Style) (file name : Text)

/-- What a method puts inside the braces of the class. -/
def inside (s : Stub) : Text := if s.kind.isVariable then [] else y.method s

theorem members_variables (closed : Bool) {vs : List Stub} (h : ∀ s ∈ vs, s.kind = .variableDecl) :
    y.members file name closed vs = .ok (closing closed ++ (vs.flatMap Stub.behind ++ "\n")) := by
  induction vs generalizing closed with
  | nil => rfl
  | cons s vs ih =>
    obtain ⟨hs, hvs⟩ := List.forall_mem_cons.mp h
    have hbehind : s.behind = "\n" ++ Text.joinWith "\n" s.codeLines ++ "\n" := by
      rw [Stub.behind, hs]
      rfl
    rw [members, hs, ih true hvs, List.flatMap_cons, hbehind]
    simp only [Except.map, List.append_assoc]
    rfl

/-- Methods go inside the braces, and the variables behind them go behind the class. -/
theorem members_eq {ms vs : List Stub} (hms : ∀ s ∈ ms, s.kind = .methodDecl)
    (hvs : ∀ s ∈ vs, s.kind = .variableDecl) :
    y.members file name false (ms ++ vs) =
      .ok (ms.flatMap y.method ++ ("\x7d\n" ++ (vs.flatMap Stub.behind ++ "\n"))) := by
  induction ms with
  | nil => exact y.members_variables file name false hvs
  | cons s ms ih =>
    obtain ⟨hs, hms⟩ := List.forall_mem_cons.mp hms
    rw [List.cons_append, members, hs, List.flatMap_cons, List.append_assoc (y.method s)]
    simp only [ih hms]
    rfl

/-- The block of a class with methods and variables: what each stub adds, in source order. -/
theorem render_reorder {c : Stub} {ss : List Stub} (hc : c.kind = .classDecl)
    (h : ∀ s ∈ ss, s.kind = .methodDecl ∨ s.kind = .variableDecl) :
    y.render file (Stub.reorder (c :: ss)) =
      .ok (docBlock [] c.docLines ++ classSignature c ++ "\n" ++ (ss.flatMap y.inside ++
        ("\x7d\n" ++ (ss.flatMap Stub.behind ++ "\n")))) := by
  have hmethods : ∀ s ∈ ss.filter (!·.kind.isVariable), s.kind = .methodDecl := by
    intro s hs
    obtain ⟨hmem, hkind⟩ := List.mem_filter.mp hs
    refine (h s hmem).resolve_right fun hv => ?_
    rw [hv] at hkind
    cases hkind
  have hvariables : ∀ s ∈ ss.filter (·.kind.isVariable), s.kind = .variableDecl := by
    intro s hs
    simpa [StubKind.isVariable] using (List.mem_filter.mp hs).2
  have hinside : (ss.filter (!·.kind.isVariable)).flatMap y.method = ss.flatMap y.inside := by
    rw [Stub.flatMap_filter]
    refine List.flatMap_congr fun s _ => ?_
    rw [inside]
    cases s.kind.isVariable <;> rfl
  have hbehind : (ss.filter (·.kind.isVariable)).flatMap Stub.behind = ss.flatMap Stub.behind := by
    rw [Stub.flatMap_filter]
    refine List.flatMap_congr fun s _ => ?_
    rw [Stub.behind]
    cases s.kind.isVariable <;> rfl
  have hclass : c.kind.isClass = true := by
    rw [hc]
    rfl
  rw [Stub.reorder_cons, render, if_pos hclass, members_eq y file _ hmethods hvariables, hinside, hbehind]
  rfl

end Style

/-- The summary of a file that starts with a class. -/
theorem summarize_reorder (file : Text) {c : Stub} {ss : List Stub} (hc : c.kind = .classDecl)
    (hname : c.className ≠ []) :
    summarize file (Stub.reorder (c :: ss)) =
      { path := file
        className := c.className
        parent := c.parent
        methodCount := Int64.ofNat (ss.countP (·.kind.isMethod))
        variableCount := Int64.ofNat (ss.countP (·.kind.isVariable)) } := by
  have hkeep : ∀ (ts : List Stub) (p : Text),
      ts.foldl addClassName (c.className, p) = (c.className, p) := by
    intro ts p
    induction ts with
    | nil => rfl
    | cons s ts ih => simpa [addClassName, hname] using ih
  have hnames : (Stub.reorder (c :: ss)).foldl addClassName ([], []) = (c.className, c.parent) := by
    rw [Stub.reorder_cons, List.foldl_cons]
    have hfirst : addClassName ([], []) c = (c.className, c.parent) := by
      simp [addClassName, hc, StubKind.isClass]
    rw [hfirst, hkeep]
  have hcount : ∀ p : Stub → Bool, p c = false →
      (Stub.reorder (c :: ss)).countP p = ss.countP p := by
    intro p hp
    rw [(Stub.reorder_perm _).countP_eq, List.countP_cons_of_neg (by simp [hp])]
  rw [summarize, hnames, hcount _ (by rw [hc]; rfl), hcount _ (by rw [hc]; rfl)]

end StubDecl
