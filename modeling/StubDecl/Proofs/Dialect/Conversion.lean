import Mathlib.Data.List.Nodup
import StubDecl.Proofs.Declaration
import StubDecl.Proofs.Dialect.Lines

/-!
# Class files are declared as they stand

A class file that is written in the stub dialect is converted to its declaration, for every type table
and every style (`ClassFile.convertFile_write`). The lines are scanned to one stub a member
(`ClassFile.scan_write`), the types are read off the tags whatever their order
(`Method.get?_docTypes`, `Method.returns_docTypes`), and each stub is rendered as the member that it
was written from.
-/

namespace StubDecl.Dialect

/-! ## Types -/

/-- The type that a doc block gives to a parameter, or to the result. -/
def typeOf (d : DocTypes) : Option Name → Option Text
  | some n => d.params.get? n.text
  | none => some d.returns

theorem Name.text_inj {n n' : Name} : n.text = n'.text ↔ n = n' := by
  constructor
  · intro h
    cases n
    cases n'
    cases h
    rfl
  · rintro rfl
    rfl

variable (table : TypeTable)

theorem typeOf_addLine (d : DocTypes) (t : Tag) (k : Option Name) :
    typeOf (table.addLine d t.line) k =
      if k = t.param? then some (table.normalize t.type.text) else typeOf d k := by
  rw [TypeTable.addLine, t.parse_line]
  obtain ⟨n, ty⟩ := t
  cases n with
  | none => cases k <;> rfl
  | some n =>
    cases k with
    | none => rfl
    | some k => simp [Tag.read, typeOf, Name.text_inj]

/-- The types after tags. -/
def afterTags (d : DocTypes) (tags : List Tag) : DocTypes :=
  tags.foldl (fun d t => table.addLine d t.line) d

variable {tags : List Tag} {k : Option Name}

theorem typeOf_afterTags_of_notMem (h : ∀ t ∈ tags, t.param? ≠ k) (d : DocTypes) :
    typeOf (afterTags table d tags) k = typeOf d k := by
  induction tags generalizing d with
  | nil => rfl
  | cons t tags ih =>
    obtain ⟨ht, htags⟩ := List.forall_mem_cons.mp h
    exact (ih htags _).trans ((typeOf_addLine table d t k).trans (if_neg ht.symm))

/-- A type that is documented is found, where no other tag speaks about the same parameter. -/
theorem typeOf_afterTags_of_mem {ty : SourceType} (hmem : ⟨k, ty⟩ ∈ tags)
    (hunique : ∀ t ∈ tags, t.param? = k → t.type = ty) (d : DocTypes) :
    typeOf (afterTags table d tags) k = some (table.normalize ty.text) := by
  induction tags generalizing d with
  | nil => cases hmem
  | cons t tags ih =>
    obtain ⟨ht, htags⟩ := List.forall_mem_cons.mp hunique
    by_cases hlater : ⟨k, ty⟩ ∈ tags
    · exact ih hlater htags _
    · have hnone : ∀ u ∈ tags, u.param? ≠ k := by
        rintro u hu rfl
        have huty : u.type = ty := htags u hu rfl
        exact hlater (huty ▸ hu)
      obtain rfl : ⟨k, ty⟩ = t := (List.mem_cons.mp hmem).resolve_right hlater
      exact (typeOf_afterTags_of_notMem table hnone _).trans
        ((typeOf_addLine table d _ k).trans (if_pos rfl))

/-- Tags that give at most one type for the same thing give that type, or leave what was there. -/
theorem typeOf_afterTags {ty? : Option SourceType} (h : ∀ ty, ⟨k, ty⟩ ∈ tags ↔ ty? = some ty)
    (d : DocTypes) : typeOf (afterTags table d tags) k =
      (ty?.map fun ty => table.normalize ty.text).or (typeOf d k) := by
  cases ty? with
  | some ty =>
    refine typeOf_afterTags_of_mem table ((h ty).mpr rfl) ?_ d
    rintro ⟨_, ty'⟩ ht rfl
    exact (Option.some.inj ((h ty').mp ht)).symm
  | none =>
    refine typeOf_afterTags_of_notMem table ?_ d
    rintro ⟨_, ty'⟩ ht rfl
    cases (h ty').mp ht

namespace Method

variable (m : Method)

theorem mem_tags_param {n : Name} {ty : SourceType} :
    (⟨some n, ty⟩ : Tag) ∈ m.tags ↔ ∃ p ∈ m.params, p.name = n ∧ p.type? = some ty := by
  rw [m.perm.mem_iff]
  simp only [documented, List.mem_append, List.mem_filterMap, Option.map_eq_some_iff,
    Option.mem_toList]
  constructor
  · rintro (⟨p, hp, ty', hty, heq⟩ | ⟨ty', -, heq⟩)
    · cases heq
      exact ⟨p, hp, rfl, hty⟩
    · cases heq
  · rintro ⟨p, hp, rfl, hty⟩
    exact .inl ⟨p, hp, ty, hty, rfl⟩

theorem mem_tags_returns {ty : SourceType} : (⟨none, ty⟩ : Tag) ∈ m.tags ↔ m.returns? = some ty := by
  rw [m.perm.mem_iff]
  simp only [documented, List.mem_append, List.mem_filterMap, Option.map_eq_some_iff,
    Option.mem_toList]
  constructor
  · rintro (⟨p, -, ty', -, heq⟩ | ⟨ty', hty, heq⟩)
    · cases heq
    · cases heq
      exact hty
  · intro hty
    exact .inr ⟨ty, hty, rfl⟩

/-- The first and the last line of a doc block have no tag. -/
theorem docTypes_docLines :
    table.docTypes m.docLines = afterTags table ⟨[], TypeTable.void⟩ m.tags := by
  have hopen : ∀ d, table.addLine d "/**" = d := fun _ => rfl
  have hclose : ∀ d, table.addLine d " */" = d := fun _ => rfl
  unfold docLines
  split
  · next h =>
    rw [h]
    rfl
  · rw [TypeTable.docTypes, docComment, List.foldl_cons, hopen, List.foldl_append, List.foldl_cons,
      hclose, List.foldl_nil, List.foldl_map]
    rfl

/-- A parameter has the type that it is documented with, if any. -/
theorem get?_docTypes {p : Param} (hp : p ∈ m.params) :
    (table.docTypes m.docLines).params.get? p.name.text =
      p.type?.map fun ty => table.normalize ty.text := by
  have htags : ∀ ty, (⟨some p.name, ty⟩ : Tag) ∈ m.tags ↔ p.type? = some ty := by
    intro ty
    rw [mem_tags_param]
    constructor
    · rintro ⟨q, hq, hname, hty⟩
      rwa [List.inj_on_of_nodup_map m.nodup hq hp hname] at hty
    · intro hty
      exact ⟨p, hp, rfl, hty⟩
  have hparam : ∀ d, typeOf d (some p.name) = d.params.get? p.name.text := fun _ => rfl
  rw [← hparam, docTypes_docLines, typeOf_afterTags table htags]
  exact Option.or_none

theorem returns_docTypes : (table.docTypes m.docLines).returns =
    (m.returns?.map fun ty => table.normalize ty.text).getD TypeTable.void := by
  have hresult : ∀ d, typeOf d none = some d.returns := fun _ => rfl
  refine Option.some.inj ?_
  rw [← hresult, docTypes_docLines, typeOf_afterTags table fun _ => m.mem_tags_returns]
  cases m.returns? <;> rfl

end Method

/-! ## Stubs -/

/-- The stub of a member of the class `c` that starts at line `n`. -/
def Member.stub (c : Name) (n : Int) : Member → Stub
  | .method m =>
    { line := n, kind := .methodDecl, docLines := m.docLines, codeLines := [m.codeLine c],
      methodName := m.name.text, params := m.paramTexts }
  | .single v => { line := n, kind := .variableDecl, codeLines := [v.text] }
  | .literal x => { line := n, kind := .variableDecl, codeLines := x.lines }

/-- The stubs of members, the first of which starts at line `n`. -/
def stubs (c : Name) : Int → List Member → List Stub
  | _, [] => []
  | n, m :: ms => m.stub c n :: stubs c (n + (m.lines c).length) ms

theorem Member.stub_kind_ne (c : Name) (n : Int) (m : Member) : (m.stub c n).kind ≠ .unknown := by
  cases m <;> simp [stub]

/-- What does not depend on the lines of the stubs follows the members. -/
theorem map_stubs {α : Type} {c : Name} {g : Stub → α} {h : Member → α}
    (hg : ∀ n m, g (Member.stub c n m) = h m) (n : Int) (ms : List Member) :
    (stubs c n ms).map g = ms.map h := by
  induction ms generalizing n with
  | nil => rfl
  | cons m ms ih => rw [stubs, List.map_cons, List.map_cons, hg, ih]

theorem exists_of_mem_stubs {c : Name} {n : Int} {ms : List Member} {s : Stub}
    (h : s ∈ stubs c n ms) : ∃ k m, s = Member.stub c k m := by
  induction ms generalizing n with
  | nil => cases h
  | cons m ms ih =>
    rcases List.mem_cons.mp h with rfl | h
    · exact ⟨n, m, rfl⟩
    · exact ih h

/-! ## Scanning -/

theorem Method.isDoc_docLines (m : Method) : Scanner.IsDoc m.docLines := by
  unfold Method.docLines
  split
  · exact .inl rfl
  · refine .inr ⟨_, rfl, fun l hl => ?_⟩
    obtain ⟨t, -, rfl⟩ := List.mem_map.mp hl
    exact t.inDoc

theorem ClassFile.isDoc_docLines (f : ClassFile) : Scanner.IsDoc f.docLines := by
  unfold ClassFile.docLines
  cases f.description? with
  | none => exact .inl rfl
  | some ls =>
    refine .inr ⟨_, rfl, fun l hl => ?_⟩
    obtain ⟨d, -, rfl⟩ := List.mem_map.mp hl
    exact d.inDoc

section Scanning

variable (file : Text) {sts : List Stub}

/-- The lines of a member are scanned to its stub. -/
theorem steps_member (c : Name) (hk : ∀ st ∈ sts.head?, st.kind ≠ .unknown) (n : Int) (m : Member)
    (rest : List Text) :
    Scanner.steps file ⟨.idle, sts⟩ n (m.lines c ++ rest) =
      Scanner.steps file ⟨.idle, m.stub c n :: sts⟩ (n + (m.lines c).length) rest := by
  cases m with
  | method m =>
    rw [Member.lines, Scanner.steps_declare m.isDoc_docLines (m.classify_codeLine c) rfl nofun hk,
      m.split_paramTexts]
    rfl
  | single v =>
    exact Scanner.steps_declare (.inl rfl) v.classify_text rfl nofun hk n rest
  | literal x =>
    refine Scanner.steps_literal x.classify_open (fun l hl => ?_) hk n rest
    obtain ⟨e, -, rfl⟩ := List.mem_map.mp hl
    exact ⟨e.notTrash, e.notEnd⟩

theorem steps_members (c : Name) (hk : ∀ st ∈ sts.head?, st.kind ≠ .unknown) (n : Int)
    (ms : List Member) (rest : List Text) :
    Scanner.steps file ⟨.idle, sts⟩ n (ms.flatMap (Member.lines c) ++ rest) =
      Scanner.steps file ⟨.idle, (stubs c n ms).reverse ++ sts⟩
        (n + (ms.flatMap (Member.lines c)).length) rest := by
  induction ms generalizing n sts with
  | nil =>
    simp only [List.flatMap_nil, List.nil_append, stubs, List.reverse_nil, List.length_nil]
    rw [show n + ((0 : Nat) : Int) = n from Int.add_zero n]
  | cons m ms ih =>
    have hnext : ∀ st ∈ (m.stub c n :: sts).head?, st.kind ≠ .unknown := by
      rintro _ ⟨rfl⟩
      exact m.stub_kind_ne c n
    have hn : n + ((m.lines c).length : Int) + (ms.flatMap (Member.lines c)).length =
        n + ((m :: ms).flatMap (Member.lines c)).length := by
      rw [List.flatMap_cons, List.length_append]
      omega
    rw [← hn, List.flatMap_cons, List.append_assoc, steps_member file c hk, ih hnext, stubs,
      List.reverse_cons, List.append_assoc, List.singleton_append]

end Scanning

namespace ClassFile

variable (f : ClassFile)

/-- The stub of the class. -/
def classStub : Stub where
  line := 1
  kind := .classDecl
  docLines := f.docLines
  codeLines := [f.classLine]
  className := f.name.text
  parent := (f.parent?.map (·.text)).getD ""

theorem classStub_kind_ne : f.classStub.kind ≠ .unknown := by simp [classStub]

/-- The lines in front of the members. -/
def header : List Text := f.docLines ++ [f.classLine] ++ (f.parent?.map f.parentLine).toList

theorem steps_header (file : Text) (rest : List Text) :
    Scanner.steps file {} 1 (f.header ++ rest) =
      Scanner.steps file ⟨.idle, [f.classStub]⟩ (1 + f.header.length) rest := by
  have hnone : ∀ st ∈ ([] : List Stub).head?, st.kind ≠ .unknown := nofun
  have hclass : ∀ rest, Scanner.steps file {} 1 (f.docLines ++ [f.classLine] ++ rest) = _ :=
    Scanner.steps_declare f.isDoc_docLines f.classify_classLine rfl nofun hnone 1
  unfold header classStub
  cases f.parent? with
  | none =>
    rw [Option.map_none, Option.toList_none, List.append_nil, hclass]
    rfl
  | some p =>
    have hparent : ∀ (k : Int) (st : Stub), st.kind = .classDecl →
        Scanner.Step k (f.parentLine p) ⟨.idle, [] ++ [st]⟩
          ⟨.idle, [] ++ [{ st with parent := p.text }]⟩ :=
      fun k st hst => .extension (f.classify_parentLine p) hst
    have hn : 1 + ((f.docLines ++ [f.classLine]).length : Int) + 1 =
        1 + ((f.docLines ++ [f.classLine] ++ [f.parentLine p]).length : Int) := by
      simp only [List.length_append, List.length_singleton]
      omega
    rw [Option.map_some, Option.toList_some, ← hn, List.append_assoc, hclass, List.singleton_append]
    exact Scanner.steps_cons (hparent _ _ rfl) rest

/-- A class file is scanned to the stubs of the class and of its members. -/
theorem scan_write (file : Text) (final : Bool) :
    scan file (f.write final) =
      .ok (f.classStub :: stubs f.name (1 + f.header.length) f.members) := by
  have hlines : f.lines = f.header ++ f.members.flatMap (Member.lines f.name) := by
    simp only [lines, header, List.append_assoc, List.nil_append, List.cons_append]
  have hlast : ∀ s n, Scanner.steps file s n (if final then [[]] else []) = .ok s := by
    intro s n
    cases final with
    | true => exact Scanner.steps_cons (.trash rfl) []
    | false => rfl
  refine Scanner.scan_eq_ok_iff.mpr
    ⟨⟨.idle, (stubs f.name (1 + f.header.length) f.members).reverse ++ [f.classStub]⟩, ?_, ?_⟩
  · have hfirst : ∀ st ∈ [f.classStub].head?, st.kind ≠ .unknown := by
      rintro _ ⟨rfl⟩
      exact f.classStub_kind_ne
    rw [f.sourceLines_write, hlines, List.append_assoc, f.steps_header,
      steps_members file f.name hfirst, hlast]
  · refine Scanner.finish_eq_ok_iff.mpr ⟨rfl, by simp, ?_, _, _, rfl, rfl⟩
    intro st hst
    rcases List.mem_cons.mp hst with rfl | hst
    · exact f.classStub_kind_ne
    · obtain ⟨k, m, rfl⟩ := exists_of_mem_stubs hst
      exact m.stub_kind_ne f.name k

end ClassFile

/-! ## Rendering -/

section Rendering

variable (y : Style)

/-- The name of a parameter carries no rest marker. -/
theorem Name.restName?_text (n : Name) : Parameter.restName? n.text = none := by
  obtain ⟨b, t, hb, halnum⟩ := n.isWord.exists_cons
  have hne : b ≠ 0x2f := Ascii.ne_of_isAlnum halnum (by decide)
  have hdrop : Text.dropPrefix? n.text "/*...*/" = none := by
    rw [hb]
    exact if_neg hne
  rw [Parameter.restName?, hdrop]
  rfl

theorem Name.restName?_restText (n : Name) : Parameter.restName? n.restText = some n.text := by
  have hbytes : n.text.all Parameter.isRestByte = true := by
    refine List.all_eq_true.mpr fun b hb => ?_
    simp only [Parameter.isRestByte, n.isWord.isAlnum b hb, Bool.true_or]
  have hempty : n.text.isEmpty = false := List.isEmpty_eq_false_iff.mpr n.isWord.1
  rw [Parameter.restName?, Name.restText, Text.dropPrefix?_append, Option.bind_some, hempty, hbytes]
  rfl

namespace Method

variable (m : Method)

theorem map_parameter_paramTexts :
    m.paramTexts.map (y.parameter (table.docTypes m.docLines).params) =
      m.paramDeclarations table y := by
  have hparam : ∀ p ∈ m.params,
      y.parameter (table.docTypes m.docLines).params p.name.text = p.declaration table := by
    intro p hp
    rw [Style.parameter, p.name.restName?_text, m.get?_docTypes table hp, Param.declaration]
    cases p.type? <;> rfl
  have hrest : ∀ r : Name, y.parameter (table.docTypes m.docLines).params r.restText =
      r.restDeclaration y := by
    intro r
    rw [Style.parameter, r.restName?_restText]
    rfl
  rw [paramTexts, paramDeclarations, List.map_append, List.map_map]
  congr 1
  · exact List.map_congr_left hparam
  · cases m.rest? with
    | none => rfl
    | some r => exact congrArg (fun t => [t]) (hrest r)

theorem resultDeclaration_eq : m.resultDeclaration table =
    if (table.docTypes m.docLines).returns.isEmpty then TypeTable.void
    else (table.docTypes m.docLines).returns := by
  rw [m.returns_docTypes, resultDeclaration]
  cases m.returns? with
  | none => rfl
  | some ty =>
    simp only [Option.map_some, Option.getD_some]
    cases table.normalize ty.text <;> rfl

end Method

theorem Member.inside_stub (c : Name) (n : Int) (m : Member) :
    y.inside ((m.stub c n).annotate table) = m.inside table y := by
  cases m with
  | method m =>
    have hmethod : y.inside (((Member.method m).stub c n).annotate table) =
        y.method (((Member.method m).stub c n).annotate table) := rfl
    rw [hmethod, Style.method, Style.signature, Member.inside, Method.declaration,
      ← m.map_parameter_paramTexts table y, m.resultDeclaration_eq table]
    simp only [List.append_assoc]
    rfl
  | single v => rfl
  | literal x => rfl

theorem Member.behind_stub (c : Name) (n : Int) (m : Member) :
    ((m.stub c n).annotate table).behind = m.behind := by
  cases m <;> rfl

end Rendering

namespace ClassFile

variable (y : Style) (f : ClassFile)

theorem classSignature_classStub : Style.classSignature (f.classStub.annotate table) = f.heading := by
  have hparent : (f.classStub.annotate table).parent = (f.parent?.map Name.text).getD [] := rfl
  rw [Style.classSignature, hparent, heading]
  cases f.parent? with
  | none => rfl
  | some p => exact if_neg (by simpa using p.isWord.1)

/-- The stubs of a class file, rendered. -/
theorem render_stubs (path : Text) (n : Int) :
    y.render path (Stub.reorder (f.classStub.annotate table ::
      (stubs f.name n f.members).map (Stub.annotate table))) = .ok (f.declaration table y) := by
  have hkinds : ∀ s ∈ (stubs f.name n f.members).map (Stub.annotate table),
      s.kind = .methodDecl ∨ s.kind = .variableDecl := by
    intro s hs
    obtain ⟨t, ht, rfl⟩ := List.mem_map.mp hs
    obtain ⟨k, m, rfl⟩ := exists_of_mem_stubs ht
    cases m with
    | method m => exact .inl rfl
    | single v => exact .inr rfl
    | literal x => exact .inr rfl
  have hheading : indented "" f.heading = f.heading ++ "\n" := rfl
  have hflat : ∀ {g : Stub → Text} {h : Member → Text},
      (∀ k m, g ((Member.stub f.name k m).annotate table) = h m) →
      ((stubs f.name n f.members).map (Stub.annotate table)).flatMap g = f.members.flatMap h := by
    intro g h hg
    rw [List.flatMap_def, List.map_map, List.flatMap_def]
    exact congrArg List.flatten (map_stubs hg n f.members)
  rw [y.render_reorder path rfl hkinds, hflat (Member.inside_stub table y f.name),
    hflat (Member.behind_stub table f.name), classSignature_classStub, declaration, hheading]
  simp only [List.append_assoc]
  rfl

/-- The stubs of a class file, counted. -/
theorem summarize_stubs (path : Text) (n : Int) :
    summarize path (Stub.reorder (f.classStub.annotate table ::
      (stubs f.name n f.members).map (Stub.annotate table))) = f.summary path := by
  have hcount : ∀ {p : Stub → Bool} {q : Member → Bool},
      (∀ k m, p ((Member.stub f.name k m).annotate table) = q m) →
      ((stubs f.name n f.members).map (Stub.annotate table)).countP p = f.members.countP q := by
    intro p q hp
    have hmap := congrArg (List.countP id)
      (map_stubs (g := fun s => p (s.annotate table)) hp n f.members)
    rw [List.countP_map, List.countP_map] at hmap
    rw [List.countP_map]
    exact hmap
  rw [summarize_reorder path rfl f.name.isWord.1, hcount (q := Member.isMethod),
    hcount (q := fun m => !m.isMethod)]
  · rfl
  · intro k m
    cases m <;> rfl
  · intro k m
    cases m <;> rfl

/-- The stubs that a class file is assembled to. -/
theorem assemble_write (path : Text) (final : Bool) :
    assemble table path (f.write final) =
      .ok (Stub.reorder (f.classStub.annotate table ::
        (stubs f.name (1 + f.header.length) f.members).map (Stub.annotate table))) := by
  rw [assemble, f.scan_write, Except.map, Stub.map_annotate_reorder, List.map_cons]

/-- **A class file is converted to its declaration**, whatever its names and the order of its members
and tags. -/
theorem convertFile_write (path : Text) (final : Bool) :
    convertFile table y path (f.write final) = .ok (f.declaration table y, f.summary path) := by
  rw [convertFile, f.assemble_write]
  simp only [bind, Except.bind, f.render_stubs, f.summarize_stubs]
  rfl

/-- A class called `function`, with a variable in front of its method. -/
example : lines
    { name := ⟨"function", by decide⟩
      parent? := some ⟨"Node", by decide⟩
      members :=
        [.single { text := "var tempo = 120;" },
          .method
            { name := ⟨"prototype", by decide⟩
              params := [⟨⟨"bars", by decide⟩, some { text := "int" }⟩]
              rest? := some ⟨"masks", by decide⟩ }] } =
    ["function function() \x7b\x7d", "function.prototype = new Node();", "var tempo = 120;", "/**",
      " * @param \x7bint\x7d bars", " */",
      "function.prototype.prototype = function(bars, /*...*/masks) \x7b\x7d;"] := by
  decide +kernel

end ClassFile

end StubDecl.Dialect
