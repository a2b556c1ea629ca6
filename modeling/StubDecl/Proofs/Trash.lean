import StubDecl.Proofs.Declaration
import StubDecl.Proofs.Scan.Numbering
import StubDecl.Proofs.Text.Lines

/-!
# Trash and white space at the ends of lines

A file is converted as the file without its trash and without the white space at the ends of its lines
(`convertFile_withoutTrash`). Only the line numbers of defects differ, and they are numbers of the same lines.
So two files that differ in trash and such white space are converted alike (`convertFile_alike`), whatever
ends their lines and wherever the trash stands.
-/

namespace StubDecl

/-- The lines of a content that take part in a scan: all but trash. -/
def significantLines (content : Text) : List Text := (sourceLines content).filter Scanner.isSignificant

/-- The content without its trash and the white space at the ends of its lines. -/
def withoutTrash (content : Text) : Text := Text.joinWith "\n" (significantLines content)

/-- The lines of a content that take part in a scan and their numbers. -/
def numberedLines (content : Text) : List (Text × Nat) := Scanner.significant 1 (sourceLines content)

/-- The number in a content of the line with number `n` of the content without trash, and 0 if there is no
such line. -/
def lineOf (content : Text) : Int → Int
  | .ofNat (i + 1) => (numberedLines content)[i]?.elim 0 fun p => p.2
  | _ => 0

/-! ## Scanning without the trash -/

theorem lineOf_eq {content : Text} {i : Nat} {p : Text × Nat} (h : (numberedLines content)[i]? = some p) :
    lineOf content (1 + i) = p.2 := by
  rw [Int.add_comm]
  change (numberedLines content)[i]?.elim 0 _ = _
  rw [h]
  rfl

/-- The lines without the trash. An empty file has one line, which is trash. -/
theorem steps_withoutTrash (file content : Text) :
    Scanner.steps file {} 1 (sourceLines (withoutTrash content)) =
      Scanner.steps file {} 1 (significantLines content) := by
  by_cases hempty : significantLines content = []
  · rw [withoutTrash, hempty]
    rfl
  · have hlines : ∀ l ∈ significantLines content, IsLine l := fun l hl =>
      isLine_of_mem_sourceLines (List.mem_of_mem_filter hl)
    rw [withoutTrash, sourceLines_joinWith hempty hlines]

theorem scan_withoutTrash (file content : Text) :
    scan file content =
      Outcome.renumber (lineOf content)
        ((scan file (withoutTrash content)).map (List.map (Stub.renumber (lineOf content)))) := by
  have hsteps : Scanner.steps file {} 1 (sourceLines content) =
      Outcome.renumber (lineOf content) ((Scanner.steps file {} 1 (significantLines content)).map
        (Scanner.renumber (lineOf content))) :=
    Scanner.steps_eq_filter (s := {}) (.inl rfl) fun _ _ h => lineOf_eq h
  rw [scan, hsteps, scan, steps_withoutTrash]
  cases Scanner.steps file {} 1 (significantLines content) with
  | ok s => exact Scanner.finish_renumber _ rfl s
  | error f => rfl

/-! ## Writing declarations under other numbers -/

theorem Outcome.renumber_map {α β : Type} (g : Int → Int) (x : Outcome α) (f : α → β) :
    Outcome.renumber g (x.map f) = (Outcome.renumber g x).map f := by
  cases x <;> rfl

theorem assemble_withoutTrash (m : TypeTable) (file content : Text) :
    assemble m file content =
      Outcome.renumber (lineOf content)
        ((assemble m file (withoutTrash content)).map (List.map (Stub.renumber (lineOf content)))) := by
  have hstubs : ∀ (g : Int → Int) (ss : List Stub),
      (Stub.reorder (ss.map (Stub.renumber g))).map (Stub.annotate m) =
        ((Stub.reorder ss).map (Stub.annotate m)).map (Stub.renumber g) := by
    intro g ss
    rw [← Stub.map_reorder (Stub.renumber_kind g), List.map_map, List.map_map]
    rfl
  rw [assemble, assemble, scan_withoutTrash]
  cases scan file (withoutTrash content) with
  | ok ss => exact congrArg _ (hstubs _ ss)
  | error f => rfl

namespace Style

variable (y : Style) (g : Int → Int) (file : Text)

theorem members_renumber (name : Text) (closed : Bool) (ss : List Stub) :
    y.members file name closed (ss.map (Stub.renumber g)) =
      Outcome.renumber g (y.members file name closed ss) := by
  induction ss generalizing closed with
  | nil => rfl
  | cons s ss ih =>
    rw [List.map_cons, members, members, Stub.renumber_kind]
    cases s.kind with
    | classDecl | unknown => rfl
    | methodDecl | variableDecl =>
      simp only [ih, Outcome.renumber_map]
      rfl

theorem render_renumber {g : Int → Int} (h0 : g 0 = 0) (ss : List Stub) :
    y.render file (ss.map (Stub.renumber g)) = Outcome.renumber g (y.render file ss) := by
  cases ss with
  | nil =>
    have hdefect : (Scanner.defect .missingClass file 0 []).renumber g =
      Scanner.defect .missingClass file (g 0) [] := rfl
    rw [List.map_nil, render, Outcome.renumber_error, hdefect, h0]
  | cons c ss =>
    have hkind : (c.renumber g).kind.isClass = c.kind.isClass := rfl
    rw [List.map_cons, render, render, hkind]
    split
    · rw [members_renumber, Outcome.renumber_map]
      rfl
    · rfl

end Style

theorem summarize_renumber (g : Int → Int) (file : Text) (ss : List Stub) :
    summarize file (ss.map (Stub.renumber g)) = summarize file ss := by
  rw [summarize, summarize, List.foldl_map, List.countP_map, List.countP_map]
  rfl

/-- **A file is converted as the file without its trash**, but for the line numbers of defects. -/
theorem convertFile_withoutTrash (m : TypeTable) (y : Style) (file content : Text) :
    convertFile m y file content =
      Outcome.renumber (lineOf content) (convertFile m y file (withoutTrash content)) := by
  rw [convertFile, convertFile, assemble_withoutTrash]
  cases assemble m file (withoutTrash content) with
  | error f => rfl
  | ok ss =>
    change (y.render file (ss.map _)).bind _ = Outcome.renumber _ ((y.render file ss).bind _)
    rw [Style.render_renumber y file rfl]
    cases y.render file ss with
    | error f => rfl
    | ok block => simp only [Outcome.renumber_ok, Except.bind, summarize_renumber]; rfl

/-! ## Defects of corresponding lines -/

theorem Style.cause_of_members {y : Style} {file name : Text} {closed : Bool} {ss : List Stub}
    {f : Failure} (h : y.members file name closed ss = .error f) : ∃ d, f.cause = .defect d := by
  have hmap : ∀ {x : Outcome Text} {g : Text → Text}, x.map g = .error f → x = .error f := by
    rintro (e | t) g hx <;> cases hx
    rfl
  induction ss generalizing closed with
  | nil => cases h
  | cons s ss ih =>
    rw [members] at h
    split at h
    · cases h
      exact ⟨_, rfl⟩
    · exact ih (hmap h)
    · exact ih (hmap h)
    · cases h
      exact ⟨_, rfl⟩

theorem Style.cause_of_render {y : Style} {file : Text} {ss : List Stub} {f : Failure}
    (h : y.render file ss = .error f) : ∃ d, f.cause = .defect d := by
  cases ss with
  | nil =>
    cases h
    exact ⟨_, rfl⟩
  | cons c ss =>
    rw [render] at h
    split at h
    · cases hmembers : y.members file c.className false ss with
      | error e =>
        rw [hmembers] at h
        cases h
        exact cause_of_members hmembers
      | ok t =>
        rw [hmembers] at h
        cases h
    · cases h
      exact ⟨_, rfl⟩

/-- A file that cannot be converted has a defect. -/
theorem cause_of_convertFile {m : TypeTable} {y : Style} {file content : Text} {f : Failure}
    (h : convertFile m y file content = .error f) : ∃ d, f.cause = .defect d := by
  rw [convertFile, assemble] at h
  cases hscan : scan file content with
  | error e =>
    rw [hscan] at h
    cases h
    exact Scanner.cause_of_scan hscan
  | ok ss =>
    rw [hscan] at h
    change (y.render file ((Stub.reorder ss).map (Stub.annotate m))).bind _ = _ at h
    cases hrender : y.render file ((Stub.reorder ss).map (Stub.annotate m)) with
    | error e =>
      rw [hrender] at h
      cases h
      exact Style.cause_of_render hrender
    | ok block =>
      rw [hrender] at h
      cases h

/-- Two numbers are those of corresponding lines of two contents, not counting trash, or both are 0. -/
inductive Corresponds (a b : Text) : Int → Int → Prop
  /-- There is no line. -/
  | none : Corresponds a b 0 0
  /-- The lines are at the same place among those that are not trash, and they are equal. -/
  | line {i n n' : Nat} {l : Text} (ha : (numberedLines a)[i]? = some (l, n))
      (hb : (numberedLines b)[i]? = some (l, n')) : Corresponds a b n n'

theorem corresponds_lineOf {a b : Text} (h : significantLines a = significantLines b) (n : Int) :
    Corresponds a b (lineOf a n) (lineOf b n) := by
  obtain (- | i) | - := n
  · exact .none
  · have hfst : ∀ c, (numberedLines c)[i]?.map (·.1) = (significantLines c)[i]? := fun c => by
      rw [← List.getElem?_map, numberedLines, Scanner.map_fst_significant]
      rfl
    have heq : (numberedLines a)[i]?.map (·.1) = (numberedLines b)[i]?.map (·.1) := by
      rw [hfst, hfst, h]
    simp only [lineOf]
    cases ha : (numberedLines a)[i]? with
    | none =>
      rw [ha, Option.map_none, eq_comm, Option.map_eq_none_iff] at heq
      rw [heq]
      exact .none
    | some p =>
      rw [ha, Option.map_some, eq_comm, Option.map_eq_some_iff] at heq
      obtain ⟨q, hb, hq⟩ := heq
      rw [hb]
      exact .line (l := p.1) ha (hq ▸ hb)
  · exact .none

/-! ## Converting alike -/

/-- Two contents are converted alike: to the same block and summary, or with the same failure but for the
number of the line, which is the number of the same line. -/
inductive ConvertedAlike (m : TypeTable) (y : Style) (file a b : Text) : Prop
  /-- Both are converted, to the same. -/
  | ok {r : Text × Summary} (ha : convertFile m y file a = .ok r) (hb : convertFile m y file b = .ok r)
  /-- Both fail, with the same but for the number. -/
  | error {f : Failure} {d : Defect} {n : Int} (ha : convertFile m y file a = .error f)
      (hd : f.cause = .defect d)
      (hb : convertFile m y file b = .error { f with cause := .defect { d with line := n } })
      (hn : Corresponds a b d.line n)

theorem convertedAlike_of_significantLines {a b : Text} (h : significantLines a = significantLines b)
    (m : TypeTable) (y : Style) (file : Text) : ConvertedAlike m y file a b := by
  have ha := convertFile_withoutTrash m y file a
  have hb := convertFile_withoutTrash m y file b
  rw [withoutTrash, ← h, ← withoutTrash] at hb
  cases hc : convertFile m y file (withoutTrash a) with
  | ok r =>
    rw [hc] at ha hb
    exact .ok ha hb
  | error f =>
    obtain ⟨d, hd⟩ := cause_of_convertFile hc
    have hfail : ∀ g, f.renumber g = { f with cause := .defect (d.renumber g) } := fun g => by
      rw [Failure.renumber, hd]
      rfl
    rw [hc, Outcome.renumber_error, hfail] at ha hb
    exact .error ha rfl hb (corresponds_lineOf h d.line)

/-! ## Files that differ in trash and white space -/

/-- The lines `ms` are the lines `ls` with white space behind them and trash between them. -/
inductive Padded : List Text → List Text → Prop
  | nil : Padded [] []
  /-- A line with white space behind it. -/
  | line {l w : Text} {ls ms : List Text} (hw : w.trimEnd = []) (h : Padded ls ms) :
      Padded (l :: ls) ((l ++ w) :: ms)
  /-- A line that is trash once it is trimmed. -/
  | trash {t : Text} {ls ms : List Text} (ht : Line.isTrash t.trimEnd = true) (h : Padded ls ms) :
      Padded ls (t :: ms)

theorem Padded.significantLines_eq {a b : Text} (h : Padded (a.splitOn 0x0a) (b.splitOn 0x0a)) :
    significantLines a = significantLines b := by
  rw [significantLines, significantLines, sourceLines, sourceLines]
  generalize a.splitOn 0x0a = ls at h
  generalize b.splitOn 0x0a = ms at h
  induction h with
  | nil => rfl
  | @line l w ls ms hw _ ih =>
    rw [List.map_cons, List.map_cons, Text.trimEnd_append hw, List.filter_cons, List.filter_cons, ih]
  | trash ht _ ih =>
    rw [ih, List.map_cons, List.filter_cons_of_neg (by simp [Scanner.isSignificant, ht])]

/-- The content with a carriage return in front of each newline. -/
def crlf (content : Text) : Text := Text.joinWith "\r\n" (content.splitOn 0x0a)

theorem padded_crlf {ls : List Text} (hne : ls ≠ []) (h : ∀ l ∈ ls, 0x0a ∉ l) :
    Padded ls (Text.splitOn 0x0a (Text.joinWith "\r\n" ls)) := by
  induction ls with
  | nil => exact absurd rfl hne
  | cons l ls ih =>
    obtain ⟨hl, hls⟩ := List.forall_mem_cons.mp h
    cases ls with
    | nil =>
      rw [Text.joinWith, Text.splitOn_of_notMem hl]
      conv_rhs => rw [← List.append_nil l]
      exact .line rfl .nil
    | cons k ls =>
      have hline : 0x0a ∉ l ++ [0x0d] := by simpa using hl
      have hcut : Text.joinWith "\r\n" (l :: k :: ls) =
          (l ++ [0x0d]) ++ 0x0a :: Text.joinWith "\r\n" (k :: ls) := by
        rw [Text.joinWith_cons _ _ (List.cons_ne_nil k ls)]
        simp only [List.append_assoc]
        rfl
      rw [hcut, Text.splitOn_append_sep hline]
      exact .line (by decide) (ih (List.cons_ne_nil k ls) hls)

/-- **Trash and white space at the ends of lines do not matter.** Contents with the same lines but for
trash, once white space at the ends of the lines is trimmed, are converted alike. So in particular are a
content and the same with white space behind its lines and trash between them, anywhere, and a content with
its lines ended in the two usual ways. -/
theorem convertFile_alike (m : TypeTable) (y : Style) (file : Text) :
    (∀ a b, significantLines a = significantLines b → ConvertedAlike m y file a b) ∧
      (∀ a b, Padded (Text.splitOn 0x0a a) (Text.splitOn 0x0a b) → ConvertedAlike m y file a b) ∧
      ∀ a, ConvertedAlike m y file a (crlf a) := by
  have halike : ∀ a b, significantLines a = significantLines b → ConvertedAlike m y file a b :=
    fun a b h => convertedAlike_of_significantLines h m y file
  refine ⟨halike, fun a b h => halike a b h.significantLines_eq, fun a => halike a _ ?_⟩
  have hpadded := padded_crlf (Text.splitOn_ne_nil 0x0a a) fun l hl => Text.notMem_of_mem_splitOn hl
  exact Padded.significantLines_eq (b := crlf a) hpadded

/-- A file with a line that fits nowhere. -/
def strayLine : Text := "function A\n/**\n */\nvar x\nstray"

/-- The same with carriage returns, and with trash in front, inside the doc block and behind it. -/
def strayLinePadded : Text :=
  "/* B */\r\nfunction A\r\n/**\r\n\r\n */ \t\r\nA.prototype.n = 3;\r\nvar x\r\nstray\r\n"

/-- What both fail with, at the line that the stray one is in each of them. -/
def strayFailure (n : Int) : Failure :=
  (Scanner.defect .unrecognizedLine "A.js" n "stray").withHint (Scanner.unrecognizedHint .unknown)

theorem convertFile_alike_strayLine :
    significantLines strayLine = significantLines strayLinePadded ∧
      ConvertedAlike {} {} "A.js" strayLine strayLinePadded ∧
      convertFile {} {} "A.js" strayLine = .error (strayFailure 5) ∧
      convertFile {} {} "A.js" strayLinePadded = .error (strayFailure 8) ∧
      Corresponds strayLine strayLinePadded 5 8 := by
  have hlines : significantLines strayLine = significantLines strayLinePadded := by decide +kernel
  refine ⟨hlines, (convertFile_alike {} {} "A.js").1 _ _ hlines, by decide +kernel, by decide +kernel, ?_⟩
  exact .line (i := 4) (l := "stray") (by decide +kernel) (by decide +kernel)

end StubDecl
