import StubDecl.Proofs.Declaration
import StubDecl.Proofs.Scan.Step

/-!
# Files with a second class

A scan takes any number of class lines. What it takes can be rendered unless there is a second class, and then
the defect is the second class of the source, wherever methods and variables stand
(`Style.render_eq_error_iff`): moving the variables behind everything else does not change which class comes
first, and all other defects of a file have been found by the scan.
-/

namespace StubDecl

namespace Stub

/-- The first class of the stubs behind the first one is the same in both orders. -/
theorem find?_reordered (ss : List Stub) :
    (ss.filter (!·.kind.isVariable) ++ ss.filter (·.kind.isVariable)).find? (·.kind.isClass) =
      ss.find? (·.kind.isClass) := by
  have hothers : (ss.filter (!·.kind.isVariable)).find? (·.kind.isClass) = ss.find? (·.kind.isClass) := by
    rw [List.find?_filter]
    congr 1
    funext s
    cases s.kind <;> rfl
  have hvariables : (ss.filter (·.kind.isVariable)).find? (·.kind.isClass) = none := by
    rw [List.find?_eq_none]
    intro s hs hk
    have hv := (List.mem_filter.mp hs).2
    cases hkind : s.kind <;> rw [hkind] at hk hv <;> simp [StubKind.isClass, StubKind.isVariable] at hk hv
  rw [List.find?_append, hothers, hvariables, Option.or_none]

end Stub

namespace Style

variable (m : TypeTable) (y : Style) (file : Text)

/-- What is said of the class `d` in a file that has declared the class `c` before: the line and the code of
`d`, with the name of `c` in a hint. -/
def secondClass (c d : Stub) : Failure :=
  (Scanner.defect .duplicateClass file d.line (Text.joinWith "\n" d.codeLines)).withHint
    (file ++ " already declares class " ++ c.className)

/-- Behind a class, rendering fails at the next class. -/
theorem members_of_find? {c d : Stub} {ss : List Stub} (hknown : ∀ s ∈ ss, s.kind ≠ .unknown)
    (h : ss.find? (·.kind.isClass) = some d) (closed : Bool) :
    y.members file c.className closed ss = .error (secondClass file c d) := by
  induction ss generalizing closed with
  | nil => cases h
  | cons s ss ih =>
    obtain ⟨hs, hss⟩ := List.forall_mem_cons.mp hknown
    rw [members]
    cases hk : s.kind with
    | unknown => exact absurd hk hs
    | classDecl =>
      rw [List.find?_cons_of_pos (by rw [hk]; rfl)] at h
      obtain rfl : s = d := Option.some.inj h
      rfl
    | methodDecl | variableDecl =>
      rw [List.find?_cons_of_neg (by simp [hk, StubKind.isClass])] at h
      simp only [ih hss h]
      rfl

/-- Behind a class, declared stubs are rendered if there is no other class among them. -/
theorem exists_members {c : Stub} {ss : List Stub} (hknown : ∀ s ∈ ss, s.kind ≠ .unknown)
    (h : ss.find? (·.kind.isClass) = none) (closed : Bool) :
    ∃ t, y.members file c.className closed ss = .ok t := by
  induction ss generalizing closed with
  | nil => exact ⟨_, rfl⟩
  | cons s ss ih =>
    obtain ⟨hs, hss⟩ := List.forall_mem_cons.mp hknown
    rw [members]
    cases hk : s.kind with
    | unknown => exact absurd hk hs
    | classDecl =>
      rw [List.find?_cons_of_pos (by rw [hk]; rfl)] at h
      cases h
    | methodDecl =>
      rw [List.find?_cons_of_neg (by simp [hk, StubKind.isClass])] at h
      obtain ⟨t, ht⟩ := ih hss h closed
      simp only [ht]
      exact ⟨_, rfl⟩
    | variableDecl =>
      rw [List.find?_cons_of_neg (by simp [hk, StubKind.isClass])] at h
      obtain ⟨t, ht⟩ := ih hss h true
      simp only [ht]
      exact ⟨_, rfl⟩

/-- The stubs of a file, assembled and rendered: what the first class behind the first stub decides. -/
theorem render_assembled {c : Stub} {ss : List Stub} (hc : c.kind = .classDecl)
    (hknown : ∀ s ∈ ss, s.kind ≠ .unknown) :
    match ss.find? (·.kind.isClass) with
    | some d => y.render file ((Stub.reorder (c :: ss)).map (Stub.annotate m)) = .error (secondClass file c d)
    | none => ∃ t, y.render file ((Stub.reorder (c :: ss)).map (Stub.annotate m)) = .ok t := by
  have hclass : (c.annotate m).kind.isClass = true := by
    rw [show (c.annotate m).kind = c.kind from rfl, hc]
    rfl
  -- the stubs behind the first one as they are rendered
  obtain ⟨rest, hrest⟩ : ∃ rest, rest = (ss.filter (!·.kind.isVariable) ++
      ss.filter (·.kind.isVariable)).map (Stub.annotate m) := ⟨_, rfl⟩
  have hrender : y.render file ((Stub.reorder (c :: ss)).map (Stub.annotate m)) =
      (y.members file (c.annotate m).className false rest).map
        (docBlock [] (c.annotate m).docLines ++ classSignature (c.annotate m) ++ "\n" ++ ·) := by
    rw [Stub.reorder_cons, List.map_cons, render, if_pos hclass, hrest]
  have hrestKnown : ∀ s ∈ rest, s.kind ≠ .unknown := by
    intro s hs
    rw [hrest] at hs
    obtain ⟨t, ht, rfl⟩ := List.mem_map.mp hs
    rw [List.mem_append, List.mem_filter, List.mem_filter] at ht
    exact hknown t (ht.elim And.left And.left)
  have hfind : rest.find? (·.kind.isClass) = (ss.find? (·.kind.isClass)).map (Stub.annotate m) := by
    rw [hrest, List.find?_map]
    exact congrArg _ (Stub.find?_reordered ss)
  rw [hrender]
  cases hd : ss.find? (·.kind.isClass) with
  | some d =>
    rw [hd] at hfind
    dsimp only
    rw [y.members_of_find? file hrestKnown hfind]
    rfl
  | none =>
    rw [hd] at hfind
    obtain ⟨t, ht⟩ := y.exists_members file (c := c.annotate m) hrestKnown hfind false
    exact ⟨_, by rw [ht]; rfl⟩

/-- **The only defect behind a scan is a second class.** A file that is assembled starts with a class; it is
not rendered exactly if there is another class behind it, and the failure is about the first of these in
source order. -/
theorem render_eq_error_iff {content : Text} {assembled : List Stub}
    (h : assemble m file content = .ok assembled) :
    ∃ c ss, scan file content = .ok (c :: ss) ∧ c.kind = .classDecl ∧
      ((∃ f, y.render file assembled = .error f) ↔ ∃ s ∈ ss, s.kind = .classDecl) ∧
      ∀ f, y.render file assembled = .error f ↔
        ∃ before d after, ss = before ++ d :: after ∧ (∀ s ∈ before, s.kind ≠ .classDecl) ∧
          d.kind = .classDecl ∧ f = secondClass file c d := by
  obtain ⟨stubs, hscan, rfl⟩ := Outcome.map_eq_ok h
  obtain ⟨s, -, hfinish⟩ := Scanner.scan_eq_ok_iff.mp hscan
  obtain ⟨-, -, hknown, c, ss, rfl, hc⟩ := Scanner.finish_eq_ok_iff.mp hfinish
  have hrender := y.render_assembled m file hc fun s hs => hknown s (List.mem_cons_of_mem c hs)
  have hisClass : ∀ s : Stub, s.kind.isClass = true ↔ s.kind = .classDecl := fun s => beq_iff_eq
  refine ⟨c, ss, hscan, hc, ?_⟩
  cases hd : ss.find? (·.kind.isClass) with
  | none =>
    rw [hd] at hrender
    obtain ⟨t, ht⟩ := hrender
    have hno : ∀ s ∈ ss, s.kind ≠ .classDecl := fun s hs hk =>
      List.find?_eq_none.mp hd s hs ((hisClass s).mpr hk)
    simp only [ht, reduceCtorEq, exists_false, false_iff, not_exists, not_and]
    refine ⟨hno, ?_⟩
    rintro f before d after rfl - hk
    exact absurd hk (hno d (by simp))
  | some d =>
    rw [hd] at hrender
    obtain ⟨hk, before, after, rfl, hbefore⟩ := List.find?_eq_some_iff_append.mp hd
    have hk : d.kind = .classDecl := (hisClass d).mp hk
    have hfirst : ∀ s ∈ before, s.kind ≠ .classDecl := by
      intro s hs hks
      have hnot := hbefore s hs
      rw [(hisClass s).mpr hks] at hnot
      cases hnot
    simp only [hrender, Except.error.injEq]
    refine ⟨⟨fun _ => ⟨d, by simp, hk⟩, fun _ => ⟨_, rfl⟩⟩, fun f => ⟨?_, ?_⟩⟩
    · rintro rfl
      exact ⟨before, d, after, rfl, hfirst, hk, rfl⟩
    · rintro ⟨before', d', after', hss, hfirst', hk', rfl⟩
      -- both are the first class of the same stubs
      have hd' : (before ++ d :: after).find? (·.kind.isClass) = some d' := by
        refine List.find?_eq_some_iff_append.mpr ⟨(hisClass d').mpr hk', before', after', hss, ?_⟩
        intro s hs
        simpa [StubKind.isClass] using hfirst' s hs
      rw [hd] at hd'
      rw [Option.some.inj hd']

/-- A file with two more classes, one of them documented, among methods and variables. -/
def threeClasses : Text :=
  ("function A() \x7b\x7d\nvar x = 1;\nA.prototype.f = function() \x7b\x7d;\n" : Text) ++
    ("/** B. */\nfunction B() \x7b\x7d\nvar y = 2;\nfunction C() \x7b\x7d" : Text)

theorem render_eq_error_iff_threeClasses :
    ∃ assembled c ss, assemble {} "A.js" threeClasses = .ok assembled ∧
      scan "A.js" threeClasses = .ok (c :: ss) ∧ (∃ s ∈ ss, s.kind = .classDecl) ∧
      ∃ f, render {} "A.js" assembled = .error f ∧
        (∃ before d after, ss = before ++ d :: after ∧ (∀ s ∈ before, s.kind ≠ .classDecl) ∧
          d.kind = .classDecl ∧ f = secondClass "A.js" c d) ∧
        f.message = ("duplicate class declaration: A.js:4: \"function B() \x7b\x7d\"" : Text) := by
  have hfacts : ∃ assembled ∈ (assemble {} "A.js" threeClasses).toOption,
      ∃ f ∈ (match render {} "A.js" assembled with
        | .error f => some f
        | .ok _ => none),
      f.message = ("duplicate class declaration: A.js:4: \"function B() \x7b\x7d\"" : Text) := by
    decide +kernel
  obtain ⟨assembled, hsome, f, hf, hmessage⟩ := hfacts
  cases h : assemble {} "A.js" threeClasses with
  | error g =>
    rw [h] at hsome
    cases hsome
  | ok stubs =>
    rw [h] at hsome
    obtain rfl : stubs = assembled := Option.some.inj hsome
    cases hrender : render {} "A.js" stubs with
    | ok t =>
      rw [hrender] at hf
      cases hf
    | error g =>
      rw [hrender] at hf
      obtain rfl : g = f := Option.some.inj hf
      obtain ⟨c, ss, hscan, -, hiff, hall⟩ := render_eq_error_iff {} {} "A.js" h
      exact ⟨stubs, c, ss, rfl, hscan, hiff.mp ⟨g, hrender⟩, g, hrender, (hall g).mp hrender, hmessage⟩

end Style

end StubDecl
