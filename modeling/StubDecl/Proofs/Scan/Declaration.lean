import StubDecl.Proofs.Layout
import StubDecl.Proofs.Scan.Comment
import StubDecl.Proofs.Scan.Grammar
import StubDecl.Proofs.Scan.Lines

/-!
# A declaration is no stub file

A declaration block starts with the doc block of its class and the line that opens the class. A scan takes
this line for the opening of a literal, where it needs a class line. So whatever follows a declaration, it
cannot be converted again (`convertFile_declaration`).
-/

namespace StubDecl

/-! ## The line that opens a class -/

namespace Style

variable {c : Stub}

theorem exists_classSignature (hname : IsWord c.className)
    (hparent : c.parent = [] ∨ IsWord c.parent) :
    ∃ mid, classSignature c = ("declare" : Text) ++ ((" class " : Text) ++ (mid ++ (" \x7b" : Text))) ∧
      ∀ b, Ascii.isAlnum b = false → b ≠ 0x20 → b ∉ mid := by
  rw [classSignature]
  split
  · refine ⟨c.className, by simp only [List.append_assoc]; rfl, fun b hb _ => hname.notMem hb⟩
  · next hsome =>
    have hword : IsWord c.parent := hparent.resolve_left (by simpa using hsome)
    refine ⟨c.className ++ ((" extends " : Text) ++ c.parent),
      by simp only [List.append_assoc]; rfl, fun b hb hblank hmem => ?_⟩
    have hextends : ∀ x ∈ (" extends " : Text), x = 0x20 ∨ Ascii.isAlnum x = true := by
      decide +kernel
    obtain hmem | hmem := List.mem_append.mp hmem
    · exact hname.notMem hb hmem
    · obtain hmem | hmem := List.mem_append.mp hmem
      · obtain rfl | hb' := hextends b hmem
        · exact hblank rfl
        · rw [hb] at hb'
          cases hb'
      · exact hword.notMem hb hmem

variable (hname : IsWord c.className) (hparent : c.parent = [] ∨ IsWord c.parent)

include hname hparent

theorem isLine_classSignature : IsLine (classSignature c) := by
  obtain ⟨mid, hmid, hbytes⟩ := exists_classSignature hname hparent
  rw [hmid, ← List.append_assoc, ← List.append_assoc]
  refine isLine_append (b := 0x7b) ?_ (by decide) rfl (by decide)
  simp only [List.mem_append, not_or]
  exact ⟨⟨by decide, by decide⟩, hbytes 0x0a rfl (by decide)⟩

/-- A scan takes the line for the opening of a literal. -/
theorem classify_classSignature : Line.classify (classSignature c) = .codeStart := by
  obtain ⟨mid, hmid, hbytes⟩ := exists_classSignature hname hparent
  have hword : IsWord "declare" := by decide
  have hat : 0x40 ∉ ("declare" : Text) ++ ((" class " : Text) ++ (mid ++ (" \x7b" : Text))) := by
    simp only [List.mem_append, not_or]
    exact ⟨by decide, by decide, hbytes 0x40 rfl (by decide), by decide⟩
  have hends : EndsWord ((" class " : Text) ++ (mid ++ (" \x7b" : Text))) := by
    rintro b ⟨⟩
    rfl
  have hvalue : Line.propertyValue? (("declare" : Text) ++ ((" class " : Text) ++ (mid ++ (" \x7b" : Text)))) =
      none := by
    rw [Line.propertyValue?, Line.afterWord?_append hword hends]
    rfl
  have hopen : Line.isCodeStart (("declare" : Text) ++ ((" class " : Text) ++ (mid ++ (" \x7b" : Text)))) =
      true := by
    rw [← List.append_assoc, ← List.append_assoc, Line.isCodeStart, Text.endsWith_append (by decide)]
    decide
  rw [hmid, Line.classify_word hword hat (Line.isTrash_word hword _ (by rw [hvalue]; nofun)),
    Line.declarationShape, if_pos hopen]

end Style

/-! ## The doc block in front of it -/

namespace Line

variable {l : Text}

theorem isTrash_of_isDocStart (h : isDocStart l = true) : isTrash l = false := by
  obtain ⟨r, rfl⟩ := Text.exists_of_startsWith h
  rfl

theorem isTrash_of_isDocEnd (h : isDocEnd l = true) : isTrash l = false := by
  obtain ⟨r, rfl⟩ := Text.exists_of_startsWith h
  rfl

theorem classify_of_isDocStart (h : isDocStart l = true) : classify l = .docStart := by
  rw [classify, if_neg (by simp [isTrash_of_isDocStart h]), if_pos h]

end Line

namespace Grammar

/-- Behind a whole doc block a class line is needed. -/
theorem foldl_next_docBlock {ls : List Text} (h : DocBlock ls) : ls.foldl next .start = .documented := by
  have hopen : ∀ {l}, Line.isDocStart l = true → next .start l = openDoc l .classDoc .documented := by
    intro l hstart
    rw [next_of_shape (by simp [Line.classify_of_isDocStart hstart]), nextOf,
      Line.classify_of_isDocStart hstart]
  cases h with
  | oneLine hstart hone =>
    rw [List.foldl_cons, hopen hstart, openDoc, if_pos hone]
    rfl
  | @lines l e ls hstart hone hinside hend =>
    have hinner : ls.foldl next .classDoc = .classDoc := by
      clear hopen
      induction ls with
      | nil => rfl
      | cons x ls ih =>
        obtain ⟨hx, hls⟩ := List.forall_mem_cons.mp hinside
        have hstay : next .classDoc x = .classDoc := by
          rw [next]
          split
          · rfl
          · rw [nextOf, if_neg (by simp [hx])]
        rw [List.foldl_cons, hstay, ih hls]
    rw [List.cons_append, List.foldl_cons, hopen hstart, openDoc, if_neg (by simp [hone]),
      List.foldl_append, hinner, List.foldl_cons, next, if_neg (by simp [Line.isTrash_of_isDocEnd hend]),
      nextOf, if_pos hend]
    rfl

/-- No file starts with the doc block of a class and the line that opens its declaration. -/
theorem foldl_next_declaration {file content : Text} {c : Stub} {ss : List Stub}
    (h : scan file content = .ok (c :: ss)) (hc : c.kind = .classDecl) (ls : List Text) :
    (c.docLines ++ Style.classSignature c :: ls).foldl next .start = .lost := by
  obtain ⟨-, hcomplete⟩ := Scanner.complete_of_scan h c List.mem_cons_self
  have hshape := Style.classify_classSignature (hcomplete.named hc) hcomplete.parent
  have hlost : ∀ {q}, q = .start ∨ q = .documented → next q (Style.classSignature c) = .lost := by
    rintro q (rfl | rfl) <;> rw [next_of_shape (by simp [hshape]), nextOf, hshape]
  have hdoc : c.docLines.foldl next .start = .start ∨ c.docLines.foldl next .start = .documented := by
    by_cases hnil : c.docLines = []
    · rw [hnil]
      exact .inl rfl
    · exact .inr (foldl_next_docBlock (Scanner.docBlock_of_scan h List.mem_cons_self hnil))
  rw [List.foldl_append, List.foldl_cons, hlost hdoc, foldl_next_lost]

end Grammar

/-! ## Converting a declaration -/

/-- A declaration block starts with the doc block and the signature of a class that was scanned. -/
theorem exists_of_convertFile {m : TypeTable} {y : Style} {file content block : Text} {s : Summary}
    (h : convertFile m y file content = .ok (block, s)) :
    ∃ c ss t, scan file content = .ok (c :: ss) ∧ c.kind = .classDecl ∧
      block = Text.ofLines (c.docLines ++ [Style.classSignature c]) ++ t := by
  obtain ⟨stubs, hassemble, hrender, -⟩ := convertFile_eq_ok h
  obtain ⟨scanned, hscan, rfl⟩ := Outcome.map_eq_ok hassemble
  obtain ⟨s, -, hfinish⟩ := Scanner.scan_eq_ok_iff.mp hscan
  obtain ⟨-, -, -, c, ss, rfl, hc⟩ := Scanner.finish_eq_ok_iff.mp hfinish
  rw [Stub.map_annotate_reorder, List.map_cons, Stub.reorder_cons, Style.render] at hrender
  split at hrender
  · obtain ⟨t, -, rfl⟩ := Outcome.map_eq_ok hrender
    refine ⟨c, ss, t, hscan, hc, ?_⟩
    have hdoc : (c.annotate m).docLines.map (([] : Text) ++ ·) = c.docLines := List.map_id c.docLines
    rw [Style.docBlock_eq, hdoc, Text.ofLines_append, Text.ofLines_cons, Text.ofLines_nil, List.append_nil]
    simp only [List.append_assoc]
    rfl
  · cases hrender

/-- **A declaration cannot be converted again**, whatever stands behind it and whatever the settings
are. -/
theorem convertFile_declaration {m : TypeTable} {y : Style} {file content block : Text} {s : Summary}
    (h : convertFile m y file content = .ok (block, s)) (m' : TypeTable) (y' : Style) (path t : Text) :
    ∃ f, convertFile m' y' path (block ++ t) = .error f := by
  obtain ⟨c, ss, u, hscan, hc, rfl⟩ := exists_of_convertFile h
  obtain ⟨-, hcomplete⟩ := Scanner.complete_of_scan hscan c List.mem_cons_self
  have hlines : ∀ l ∈ c.docLines ++ [Style.classSignature c], IsLine l := by
    refine List.forall_mem_append.mpr ⟨fun l hl => ?_, List.forall_mem_singleton.mpr
      (Style.isLine_classSignature (hcomplete.named hc) hcomplete.parent)⟩
    have hkept : l ∈ Reading.kept (sourceLines content) := by
      rw [← Reading.flatMap_lines_of_scan hscan]
      exact List.mem_flatMap.mpr ⟨c, List.mem_cons_self, List.mem_append_left _ hl⟩
    exact isLine_of_mem_sourceLines ((Reading.kept_sublist _).subset hkept)
  have hfails : ∀ stubs, scan path (Text.ofLines (c.docLines ++ [Style.classSignature c]) ++ u ++ t) ≠
      .ok stubs := by
    intro stubs hok
    have hbody := (Grammar.scan_ok_iff_foldl _ _).mp ⟨stubs, hok⟩
    rw [List.append_assoc, sourceLines_ofLines_append hlines, List.append_assoc, List.singleton_append,
      Grammar.foldl_next_declaration hscan hc] at hbody
    cases hbody
  cases hconvert : convertFile m' y' path
      (Text.ofLines (c.docLines ++ [Style.classSignature c]) ++ u ++ t) with
  | error f => exact ⟨f, rfl⟩
  | ok r =>
    obtain ⟨c', ss', -, hscan', -⟩ := exists_of_convertFile hconvert
    exact absurd hscan' (hfails _)

end StubDecl
