import StubDecl.Proofs.Dialect.Basic

/-!
# The lines of a class file

Every line of a class file is a line of the content (`ClassFile.isLine_of_mem_lines`) and has the shape
that its author means, whatever the names in it are: a class may be called `function`, and a method
`prototype`.
-/

namespace StubDecl

namespace Dialect

/-! ## Lines of doc blocks -/

/-- A line behind an asterisk stands inside a doc block: no word comes first, and the block goes on. -/
theorem inDoc_star (t : Text) :
    Line.isTrash ((" * " : Text) ++ t) = false ∧ Line.isDocEnd ((" * " : Text) ++ t) = false :=
  ⟨rfl, rfl⟩

theorem DescriptionLine.inDoc (l : DescriptionLine) :
    Line.isTrash l.text = false ∧ Line.isDocEnd l.text = false := by
  obtain h | h := l.starred
  · rw [h]
    decide
  · obtain ⟨r, hr⟩ := Text.exists_of_startsWith h
    rw [hr]
    exact inDoc_star r

namespace Tag

/-- What the line of a tag is read as. -/
def read (t : Tag) : DocTag :=
  match t.param? with
  | some n => ⟨.param, t.type.text, n.text⟩
  | none => ⟨.returns, t.type.text, "value"⟩

theorem line_eq (t : Tag) : t.line = (" * " : Text) ++
    0x40 :: (t.read.kind.word ++ (" \x7b" : Text) ++ (t.type.text ++ 0x7d :: 0x20 :: t.read.name)) := by
  obtain ⟨n, ty⟩ := t
  cases n with
  | some n =>
    simp only [line, List.append_assoc]
    rfl
  | none =>
    simp only [line, List.append_assoc]
    rfl

theorem isWord_name (t : Tag) : IsWord t.read.name := by
  unfold read
  split
  · next n _ => exact n.isWord
  · exact (by decide : IsWord (("value" : Text)))

theorem inDoc (t : Tag) : Line.isTrash t.line = false ∧ Line.isDocEnd t.line = false := by
  rw [line_eq]
  exact inDoc_star _

theorem parse_line (t : Tag) : DocTag.parse t.line = some t.read := by
  have hbyte : ∀ b ∈ t.read.name, DocTag.isNameByte b = true := by
    intro b hb
    simp only [DocTag.isNameByte, t.isWord_name.isAlnum b hb, Bool.true_or]
  have hname : DocTag.name? (0x7d :: 0x20 :: t.read.name) = some t.read.name := by
    have hend : ∀ b ∈ ([] : Text).head?, DocTag.isNameByte b = false := nofun
    simpa using DocTag.name?_word t.isWord_name.1 hbyte hend
  have htype : t.read.type = t.type.text := by
    unfold read
    split <;> rfl
  rw [line_eq, DocTag.parse_tag t.read.kind (by decide) t.type.ne_nil t.type.isTypeByte hname, ← htype]

end Tag

/-! ## Declarations -/

theorem Name.notMem (n : Name) {b : UInt8} (hb : Ascii.isAlnum b = false) : b ∉ n.text :=
  n.isWord.notMem hb

namespace ClassFile

variable (f : ClassFile)

theorem classify_classLine : Line.classify f.classLine = .classLine f.name.text := by
  have hline : f.classLine = ("function" : Text) ++ ((" " : Text) ++ f.name.text ++ "() \x7b\x7d") := by
    simp only [classLine, List.append_assoc]
    rfl
  have hat : 0x40 ∉ f.classLine := by
    simp only [classLine, List.mem_append, not_or]
    exact ⟨⟨by decide, f.name.notMem (by decide)⟩, by decide⟩
  have hopen : Line.isCodeStart f.classLine = false := Text.endsWith_append (by decide) _
  have hclass : Line.class? f.classLine = some f.name.text := by
    rw [Line.class?, classLine, List.append_assoc, Text.dropPrefix?_append]
    have hword := Line.word?_append (r := "() \x7b\x7d") f.name.isWord (endsWord_cons (by decide) _)
    simp only [Option.bind_eq_bind, Option.bind_some, hword]
    rfl
  rw [hline] at hat hopen hclass ⊢
  rw [Line.classify_word (by decide) hat rfl, Line.declarationShape, hopen, hclass]
  rfl

theorem classify_parentLine (p : Name) : Line.classify (f.parentLine p) = .extension p.text := by
  have hline : f.parentLine p = f.name.text ++ ((".prototype = new " : Text) ++ (p.text ++ "();")) := by
    simp only [parentLine, List.append_assoc]
  have hat : 0x40 ∉ f.parentLine p := by
    simp only [parentLine, List.mem_append, not_or]
    exact ⟨⟨⟨f.name.notMem (by decide), by decide⟩, p.notMem (by decide)⟩, by decide⟩
  have hopen : Line.isCodeStart (f.parentLine p) = false := Text.endsWith_append (by decide) _
  have hafter : ∀ sep, Line.afterWord? sep (f.parentLine p) =
      Text.dropPrefix? ((".prototype = new " : Text) ++ (p.text ++ "();")) sep := by
    intro sep
    rw [hline]
    exact Line.afterWord?_append f.name.isWord (endsWord_cons (by decide) _) sep
  have htrash : Line.isTrash (f.parentLine p) = false := by
    have hvalue : Line.propertyValue? (f.parentLine p) = none := by
      rw [Line.propertyValue?, hafter]
      rfl
    rw [hline] at hvalue ⊢
    refine Line.isTrash_word f.name.isWord _ ?_
    rw [hvalue]
    nofun
  have hparent : Line.extension? (f.parentLine p) = some p.text := by
    have hword := Line.word?_append (r := "();") p.isWord (endsWord_cons (by decide) _)
    rw [Line.extension?, hafter, Text.dropPrefix?_append]
    simp only [Option.bind_eq_bind, Option.bind_some, hword]
    rfl
  rw [hline] at hat hopen htrash hparent ⊢
  rw [Line.classify_word f.name.isWord hat htrash, Line.declarationShape, hopen, hparent]
  rfl

end ClassFile

theorem VariableLine.classify_text (v : VariableLine) : Line.classify v.text = .variableLine := by
  have hat := v.noTag
  have hopen : Line.isCodeStart v.text = false := v.notOpen
  obtain ⟨r, hr⟩ := Text.exists_of_startsWith v.isVar
  have hline : v.text = ("var" : Text) ++ 0x20 :: r := hr
  rw [hline] at hat hopen ⊢
  rw [Line.classify_word (by decide) hat rfl, Line.declarationShape, hopen]
  rfl

theorem Literal.classify_open (x : Literal) :
    Line.classify ("var " ++ x.name.text ++ " = \x7b" : Text) = .codeStart := by
  have hline : ("var " ++ x.name.text ++ " = \x7b" : Text) =
      ("var" : Text) ++ ((" " : Text) ++ x.name.text ++ " = \x7b") := by
    simp only [List.append_assoc]
    rfl
  have hat : 0x40 ∉ ("var " ++ x.name.text ++ " = \x7b" : Text) := by
    simp only [List.mem_append, not_or]
    exact ⟨⟨by decide, x.name.notMem (by decide)⟩, by decide⟩
  have hopen : Line.isCodeStart ("var " ++ x.name.text ++ " = \x7b" : Text) = true :=
    Text.endsWith_append (by decide) _
  rw [hline] at hat hopen ⊢
  rw [Line.classify_word (by decide) hat rfl, Line.declarationShape, hopen]
  rfl

namespace Method

variable (c : Name) (m : Method)

/-! ### Parameters -/

theorem exists_of_mem_paramTexts {p : Text} (h : p ∈ m.paramTexts) :
    ∃ n : Name, p = n.text ∨ p = n.restText := by
  rcases List.mem_append.mp h with h | h
  · obtain ⟨q, -, rfl⟩ := List.mem_map.mp h
    exact ⟨q.name, .inl rfl⟩
  · obtain ⟨r, -, rfl⟩ := Option.map_eq_some_iff.mp (Option.mem_toList.mp h)
    exact ⟨r, .inr rfl⟩

/-- A parameter is read up to its end, and is not changed by trimming. -/
theorem param_reads {p : Text} (h : p ∈ m.paramTexts) :
    p ≠ [] ∧ (∀ b ∈ p, Parameter.isByte b = true) ∧ p.trim = p := by
  have hword : ∀ (n : Name), ∀ b ∈ n.text, Parameter.isByte b = true := by
    intro n b hb
    simp only [Parameter.isByte, n.isWord.isAlnum b hb, Bool.true_or]
  obtain ⟨n, rfl | rfl⟩ := m.exists_of_mem_paramTexts h
  · exact ⟨n.isWord.1, hword n, n.isWord.trim_eq⟩
  · have hmark : ∀ b ∈ ("/*...*/" : Text), Parameter.isByte b = true :=
      List.all_eq_true.mp (by decide)
    obtain ⟨u, b, hend, hb⟩ := n.isWord.exists_concat
    refine ⟨by simp [Name.restText, n.isWord.1], ?_, ?_⟩
    · intro b hb
      exact (List.mem_append.mp hb).elim (hmark b) (hword n b)
    · have hstart : n.restText = 0x2f :: (("*...*/" : Text) ++ n.text) := rfl
      have hend : n.restText = (("/*...*/" : Text) ++ u) ++ [b] := by
        rw [Name.restText, hend, List.append_assoc]
      exact Text.trim_eq_self (by decide) (Ascii.isVisible_of_isAlnum hb) hstart hend

theorem notMem_params {b : UInt8} (hb : Parameter.isByte b = false) {p : Text}
    (h : p ∈ m.paramTexts) : b ∉ p := by
  intro hmem
  rw [(m.param_reads h).2.1 b hmem] at hb
  cases hb

/-- The parameters are read back from a method line. -/
theorem split_paramTexts : Parameter.split (Text.joinWith ", " m.paramTexts) = m.paramTexts :=
  Parameter.split_joinWith fun _ hp =>
    ⟨(m.param_reads hp).1, m.notMem_params (by decide) hp, (m.param_reads hp).2.2⟩

/-! ### The line of a method -/

theorem notMem_codeLine {b : UInt8} (hb : b = 0x40 ∨ b = 0x0a) : b ∉ m.codeLine c := by
  have hparams : b ∉ Text.joinWith ", " m.paramTexts := by
    refine Text.notMem_joinWith ?_ fun p hp => m.notMem_params ?_ hp
    · rcases hb with rfl | rfl <;> decide
    · rcases hb with rfl | rfl <;> decide
  have hname : ∀ n : Name, b ∉ n.text := by
    intro n
    rcases hb with rfl | rfl <;> exact n.notMem (by decide)
  simp only [codeLine, List.mem_append, not_or]
  refine ⟨⟨⟨⟨⟨hname c, ?_⟩, hname m.name⟩, ?_⟩, hparams⟩, ?_⟩ <;> rcases hb with rfl | rfl <;> decide

/-- What stands behind the name of the method. -/
def codeTail : Text := " = function(" ++ (Text.joinWith ", " m.paramTexts ++ ") \x7b\x7d;")

theorem codeLine_eq : m.codeLine c =
    c.text ++ ((".prototype." : Text) ++ (m.name.text ++ m.codeTail)) := by
  simp only [codeLine, codeTail, List.append_assoc]

theorem afterWord?_codeLine (sep : Text) : Line.afterWord? sep (m.codeLine c) =
    Text.dropPrefix? ((".prototype." : Text) ++ (m.name.text ++ m.codeTail)) sep := by
  rw [codeLine_eq]
  exact Line.afterWord?_append c.isWord (endsWord_cons (by decide) _) sep

theorem word?_name : Line.word? (m.name.text ++ m.codeTail) = some (m.name.text, m.codeTail) :=
  Line.word?_append m.name.isWord (endsWord_cons (by decide) _)

/-- The value of a method is a function, so that its line is not dropped. -/
theorem isTrash_codeLine : Line.isTrash (m.codeLine c) = false := by
  have hvalue : Line.propertyValue? (m.codeLine c) = some "function" := by
    rw [Line.propertyValue?, afterWord?_codeLine, Text.dropPrefix?_append]
    simp only [Option.bind_eq_bind, Option.bind_some, Line.afterWord?, m.word?_name]
    rfl
  rw [codeLine_eq] at hvalue ⊢
  refine Line.isTrash_word c.isWord _ ?_
  rw [hvalue]
  rintro _ ⟨rfl⟩
  decide

theorem method?_codeLine :
    Line.method? (m.codeLine c) = some (m.name.text, Text.joinWith ", " m.paramTexts) := by
  have hlist : Parameter.list (Text.joinWith ", " m.paramTexts ++ ") \x7b\x7d;") =
      Text.joinWith ", " m.paramTexts :=
    Parameter.list_joinWith (fun p hp => ⟨(m.param_reads hp).1, (m.param_reads hp).2.1⟩) _
  have hequals : Line.skipBlanks m.codeTail =
      ("=" : Text) ++ ((" function(" : Text) ++ (Text.joinWith ", " m.paramTexts ++ ") \x7b\x7d;")) :=
    rfl
  have hfunction : ∀ t : Text,
      Line.skipBlanks ((" function(" : Text) ++ t) = ("function(" : Text) ++ t := fun _ => rfl
  rw [Line.method?, afterWord?_codeLine, Text.dropPrefix?_append]
  simp only [Option.bind_eq_bind, Option.bind_some, m.word?_name, hequals, hfunction,
    Text.dropPrefix?_append, hlist]
  rfl

theorem classify_codeLine : Line.classify (m.codeLine c) =
    .methodLine m.name.text (Text.joinWith ", " m.paramTexts) := by
  have hat : 0x40 ∉ m.codeLine c := m.notMem_codeLine c (.inl rfl)
  have hopen : Line.isCodeStart (m.codeLine c) = false := Text.endsWith_append (by decide) _
  have hparent : Line.extension? (m.codeLine c) = none := by
    rw [Line.extension?, afterWord?_codeLine]
    rfl
  have hclass : Line.class? (m.codeLine c) = none := by
    rw [codeLine_eq]
    exact Line.class?_dot c.isWord _
  have htrash := m.isTrash_codeLine c
  have hmethod := m.method?_codeLine c
  rw [codeLine_eq] at hat hopen hparent hclass htrash hmethod ⊢
  rw [Line.classify_word c.isWord hat htrash, Line.declarationShape, hopen, hparent, hclass, hmethod]
  rfl

end Method

/-! ## All lines are trimmed -/

theorem isLine_append_word {t w : Text} (ht : 0x0a ∉ t) (hw : IsWord w) : IsLine (t ++ w) := by
  obtain ⟨u, b, rfl, hb⟩ := hw.exists_concat
  exact isLine_append ht (hw.notMem (by decide)) List.getLast?_concat (Ascii.isVisible_of_isAlnum hb)

theorem Tag.isLine (t : Tag) : IsLine t.line := by
  have htype : 0x0a ∉ t.type.text := by
    intro hmem
    exact absurd (t.type.isTypeByte _ hmem) (by decide)
  have hline : t.line = ((" * @" : Text) ++ t.read.kind.word ++ (" \x7b" : Text) ++ t.type.text ++
      ("\x7d " : Text)) ++ t.read.name := by
    rw [line_eq]
    simp only [List.append_assoc]
    rfl
  rw [hline]
  refine isLine_append_word ?_ t.isWord_name
  simp only [List.mem_append, not_or]
  refine ⟨⟨⟨⟨by decide, ?_⟩, by decide⟩, htype⟩, by decide⟩
  cases t.read.kind <;> decide

theorem isLine_docComment {ls : List Text} (h : ∀ l ∈ ls, IsLine l) :
    ∀ l ∈ docComment ls, IsLine l := by
  intro l hl
  rcases List.mem_cons.mp hl with rfl | hl
  · decide
  rcases List.mem_append.mp hl with hl | hl
  · exact h l hl
  · rw [List.mem_singleton.mp hl]
    decide

theorem Method.isLine_codeLine (c : Name) (m : Method) : IsLine (m.codeLine c) := by
  have hline := m.notMem_codeLine c (.inr rfl)
  rw [codeLine, List.mem_append, not_or] at hline
  exact isLine_append hline.1 hline.2 (b := 0x3b) rfl (by decide)

theorem Method.isLine_docLines (m : Method) : ∀ l ∈ m.docLines, IsLine l := by
  unfold docLines
  split
  · exact nofun
  · refine isLine_docComment fun l hl => ?_
    obtain ⟨t, -, rfl⟩ := List.mem_map.mp hl
    exact t.isLine

theorem Literal.isLine_lines (x : Literal) : ∀ l ∈ x.lines, IsLine l := by
  intro l hl
  rcases List.mem_cons.mp hl with rfl | hl
  · refine isLine_append ?_ (by decide) (b := 0x7b) rfl (by decide)
    rw [List.mem_append, not_or]
    exact ⟨by decide, x.name.notMem (by decide)⟩
  rcases List.mem_append.mp hl with hl | hl
  · obtain ⟨e, -, rfl⟩ := List.mem_map.mp hl
    exact e.isLine
  · rw [List.mem_singleton.mp hl]
    decide

theorem Member.isLine_lines (c : Name) (m : Member) : ∀ l ∈ m.lines c, IsLine l := by
  cases m with
  | method m =>
    intro l hl
    rcases List.mem_append.mp hl with hl | hl
    · exact m.isLine_docLines l hl
    · rw [List.mem_singleton.mp hl]
      exact m.isLine_codeLine c
  | single v =>
    intro l hl
    rw [List.mem_singleton.mp hl]
    exact v.isLine
  | literal x => exact x.isLine_lines

namespace ClassFile

variable (f : ClassFile)

theorem isLine_docLines : ∀ l ∈ f.docLines, IsLine l := by
  unfold docLines
  cases f.description? with
  | none => exact nofun
  | some ls =>
    refine isLine_docComment fun l hl => ?_
    obtain ⟨d, -, rfl⟩ := List.mem_map.mp hl
    exact d.isLine

/-- All lines of a class file are trimmed. -/
theorem isLine_of_mem_lines : ∀ l ∈ f.lines, IsLine l := by
  intro l hl
  rcases List.mem_append.mp hl with hl | hl
  · exact f.isLine_docLines l hl
  rcases List.mem_cons.mp hl with rfl | hl
  · refine isLine_append ?_ (by decide) (b := 0x7d) rfl (by decide)
    rw [List.mem_append, not_or]
    exact ⟨by decide, f.name.notMem (by decide)⟩
  rcases List.mem_append.mp hl with hl | hl
  · obtain ⟨p, -, rfl⟩ := Option.map_eq_some_iff.mp (Option.mem_toList.mp hl)
    refine isLine_append ?_ (by decide) (b := 0x3b) rfl (by decide)
    simp only [List.mem_append, not_or]
    exact ⟨⟨f.name.notMem (by decide), by decide⟩, p.notMem (by decide)⟩
  · obtain ⟨m, -, hm⟩ := List.mem_flatMap.mp hl
    exact m.isLine_lines f.name l hm

/-- The lines of a written file; a newline at its end adds an empty one. -/
theorem sourceLines_write (final : Bool) :
    sourceLines (f.write final) = f.lines ++ if final then [[]] else [] := by
  have hne : f.lines ≠ [] := by simp [lines]
  have hwrite : f.write final = Text.joinWith "\n" (f.lines ++ if final then [[]] else []) := by
    cases final with
    | true => exact ((Text.joinWith_concat _ hne []).trans (List.append_nil _)).symm
    | false =>
      exact (List.append_nil _).trans (congrArg (Text.joinWith "\n") (List.append_nil f.lines).symm)
  rw [hwrite, sourceLines_joinWith]
  · simp [hne]
  · intro l hl
    rcases List.mem_append.mp hl with hl | hl
    · exact f.isLine_of_mem_lines l hl
    · cases final with
      | true =>
        rw [List.mem_singleton.mp hl]
        decide
      | false => cases hl

end ClassFile

end Dialect

end StubDecl
