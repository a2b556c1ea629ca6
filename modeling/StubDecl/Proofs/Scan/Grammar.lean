import Mathlib.Computability.Language
import StubDecl.Proofs.Scan.Step

/-!
# The grammar of stub files

A stub file is a sequence of lines, trash lines left out. `Grammar.file` is the language of these
sequences, built from single lines by alternative, sequence and repetition:

* a file is an optional doc block, a class line, and members;
* a member is an extension, a declaration, or a doc block and a declaration with extensions between
  the two;
* a doc block and a literal are open until a line that closes them.

A scanner accepts exactly this language (`Grammar.scan_ok_iff`). The way there is a machine with
eight phases: `Grammar.mem_residual_iff` says that it accepts from each phase what may still follow
there, `Grammar.stands_next` that a scanner goes through the phases of the machine.
-/

open scoped Computability

namespace StubDecl

namespace Grammar

/-! ## The language -/

/-- A single line with a property. -/
def line (p : Text → Prop) : Language Text := {ls | ∃ l, p l ∧ ls = [l]}

/-- Any number of lines that do not close a block, and one that does. -/
def upTo (closes : Text → Bool) : Language Text :=
  (line fun l => closes l = false)∗ * line fun l => closes l = true

/-- An extension statement. -/
def extension : Language Text := line fun l => ∃ p, Line.classify l = .extension p

/-- A class line. -/
def classLine : Language Text := line fun l => ∃ c, Line.classify l = .classLine c

/-- A doc block: of one line, or of an opening line and all lines up to a closing one. -/
def doc : Language Text :=
  (line fun l => Line.classify l = .docStart ∧ Line.isOneLineDoc l = true) +
    (line fun l => Line.classify l = .docStart ∧ Line.isOneLineDoc l = false) * upTo Line.isDocEnd

/-- A declaration: of one line, or a literal from its opening line to the closing one. -/
def declaration : Language Text :=
  (line fun l => (∃ c, Line.classify l = .classLine c) ∨ (∃ m ps, Line.classify l = .methodLine m ps) ∨
      Line.classify l = .variableLine) +
    (line fun l => Line.classify l = .codeStart) * upTo Line.isCodeEnd

/-- What may follow the class line, any number of times. -/
def member : Language Text := extension + declaration + doc * extension∗ * declaration

/-- The lines of a stub file without trash. -/
def file : Language Text := (1 + doc) * classLine * member∗

/-! ## Taking off the first line -/

variable {p : Text → Prop} {closes : Text → Bool} {l : Text} {ls : List Text} {L : Language Text}

theorem cons_mem_line_mul : l :: ls ∈ line p * L ↔ p l ∧ ls ∈ L := by
  rw [Language.mem_mul]
  constructor
  · rintro ⟨_, ⟨l', hp, rfl⟩, rest, hr, h⟩
    obtain ⟨rfl, rfl⟩ : l' = l ∧ rest = ls := by simpa using h
    exact ⟨hp, hr⟩
  · rintro ⟨hp, hr⟩
    exact ⟨[l], ⟨l, hp, rfl⟩, ls, hr, rfl⟩

theorem nil_notMem_line_mul : [] ∉ line p * L := by
  rw [Language.mem_mul]
  rintro ⟨_, ⟨l', -, rfl⟩, rest, -, h⟩
  simp at h

theorem cons_mem_extension_mul :
    l :: ls ∈ extension * L ↔ (∃ p, Line.classify l = .extension p) ∧ ls ∈ L :=
  cons_mem_line_mul

theorem cons_mem_classLine_mul :
    l :: ls ∈ classLine * L ↔ (∃ c, Line.classify l = .classLine c) ∧ ls ∈ L :=
  cons_mem_line_mul

/-- A repetition is over, or its first element is taken off. -/
theorem mem_kstar_mul (K L : Language Text) (ls : List Text) :
    ls ∈ K∗ * L ↔ ls ∈ L ∨ ls ∈ K * (K∗ * L) := by
  have h : K∗ * L = L + K * (K∗ * L) := by
    conv_lhs => rw [← Language.one_add_self_mul_kstar_eq_kstar K]
    rw [add_mul, one_mul, mul_assoc]
  conv_lhs => rw [h]
  rw [Language.mem_add]

theorem cons_mem_upTo_mul :
    l :: ls ∈ upTo closes * L ↔ ls ∈ if closes l then L else upTo closes * L := by
  rw [upTo, mul_assoc, mem_kstar_mul, cons_mem_line_mul, cons_mem_line_mul]
  cases closes l <;> simp

theorem nil_notMem_upTo_mul : [] ∉ upTo closes * L := by
  rw [upTo, mul_assoc, mem_kstar_mul]
  exact not_or.2 ⟨nil_notMem_line_mul, nil_notMem_line_mul⟩

theorem cons_mem_doc_mul : l :: ls ∈ doc * L ↔ Line.classify l = .docStart ∧
    ls ∈ if Line.isOneLineDoc l then L else upTo Line.isDocEnd * L := by
  rw [doc, add_mul, mul_assoc, Language.mem_add, cons_mem_line_mul, cons_mem_line_mul]
  cases Line.isOneLineDoc l <;> simp

theorem nil_notMem_doc_mul : [] ∉ doc * L := by
  rw [doc, add_mul, mul_assoc, Language.mem_add]
  exact not_or.2 ⟨nil_notMem_line_mul, nil_notMem_line_mul⟩

theorem cons_mem_declaration_mul : l :: ls ∈ declaration * L ↔
    ((∃ c, Line.classify l = .classLine c) ∨ (∃ m ps, Line.classify l = .methodLine m ps) ∨
      Line.classify l = .variableLine) ∧ ls ∈ L ∨
    Line.classify l = .codeStart ∧ ls ∈ upTo Line.isCodeEnd * L := by
  rw [declaration, add_mul, mul_assoc, Language.mem_add, cons_mem_line_mul, cons_mem_line_mul]

theorem nil_notMem_declaration_mul : [] ∉ declaration * L := by
  rw [declaration, add_mul, mul_assoc, Language.mem_add]
  exact not_or.2 ⟨nil_notMem_line_mul, nil_notMem_line_mul⟩

/-! ## Phases -/

/-- Where a reader of the language stands: at the start; in the doc block of the class; behind it; in
front of a member; in the doc block of a member; behind it; in a literal; nowhere, since no file
starts like this. -/
inductive Phase where
  | start
  | classDoc
  | documented
  | body
  | doc
  | pending
  | code
  | lost
  deriving DecidableEq

/-- What may still follow in a phase. -/
def residual : Phase → Language Text
  | .start => file
  | .classDoc => upTo Line.isDocEnd * (classLine * member∗)
  | .documented => classLine * member∗
  | .body => member∗
  | .doc => upTo Line.isDocEnd * (extension∗ * (declaration * member∗))
  | .pending => extension∗ * (declaration * member∗)
  | .code => upTo Line.isCodeEnd * member∗
  | .lost => 0

/-- The phase after a line that opens a doc block. -/
def openDoc (l : Text) (inside behind : Phase) : Phase := if Line.isOneLineDoc l then behind else inside

/-- The phase after a line that is not trash. -/
def nextOf (l : Text) : Phase → Phase
  | .start =>
    match Line.classify l with
    | .docStart => openDoc l .classDoc .documented
    | .classLine _ => .body
    | _ => .lost
  | .classDoc => if Line.isDocEnd l then .documented else .classDoc
  | .documented =>
    match Line.classify l with
    | .classLine _ => .body
    | _ => .lost
  | .body =>
    match Line.classify l with
    | .docStart => openDoc l .doc .pending
    | .codeStart => .code
    | .extension _ | .classLine _ | .methodLine _ _ | .variableLine => .body
    | _ => .lost
  | .doc => if Line.isDocEnd l then .pending else .doc
  | .pending =>
    match Line.classify l with
    | .codeStart => .code
    | .extension _ => .pending
    | .classLine _ | .methodLine _ _ | .variableLine => .body
    | _ => .lost
  | .code => if Line.isCodeEnd l then .body else .code
  | .lost => .lost

/-- The phase after a line. -/
def next (q : Phase) (l : Text) : Phase := if Line.isTrash l then q else nextOf l q

theorem kstar_member_eq : member∗ =
    1 + (extension * member∗ + declaration * member∗ +
      doc * (extension∗ * (declaration * member∗))) := by
  conv_lhs => rw [← Language.one_add_self_mul_kstar_eq_kstar member]
  conv_lhs => enter [2, 1]; rw [member]
  simp only [add_mul, mul_assoc]

theorem file_eq : file = classLine * member∗ + doc * (classLine * member∗) := by
  rw [file, add_mul, one_mul, add_mul, mul_assoc]

theorem nil_mem_residual_iff (q : Phase) : [] ∈ residual q ↔ q = .body := by
  cases q with
  | start =>
    simp only [residual, file_eq, Language.mem_add, reduceCtorEq, iff_false, not_or]
    exact ⟨nil_notMem_line_mul, nil_notMem_doc_mul⟩
  | classDoc | doc | code => simp [residual, nil_notMem_upTo_mul]
  | documented =>
    simp only [residual, reduceCtorEq, iff_false]
    exact nil_notMem_line_mul
  | body => simp [residual, Language.nil_mem_kstar]
  | pending =>
    simp only [residual, mem_kstar_mul extension, reduceCtorEq, iff_false, not_or]
    exact ⟨nil_notMem_declaration_mul, nil_notMem_line_mul⟩
  | lost => simp [residual]

theorem cons_mem_kstar_member : l :: ls ∈ member∗ ↔
    (l :: ls ∈ extension * member∗ ∨ l :: ls ∈ declaration * member∗) ∨
      l :: ls ∈ doc * (extension∗ * (declaration * member∗)) := by
  conv_lhs => rw [kstar_member_eq]
  simp only [Language.mem_add, Language.mem_one, reduceCtorEq, false_or]

/-- What may follow a phase, its first line taken off. -/
theorem cons_mem_residual_iff (q : Phase) (l : Text) (ls : List Text) :
    l :: ls ∈ residual q ↔ ls ∈ residual (nextOf l q) := by
  cases q with
  | start =>
    simp only [residual, file_eq, Language.mem_add, cons_mem_classLine_mul, cons_mem_doc_mul]
    cases hc : Line.classify l with
    | docStart => cases ho : Line.isOneLineDoc l <;> simp [nextOf, hc, openDoc, ho]
    | _ => simp [nextOf, hc]
  | classDoc | doc | code =>
    simp only [residual, cons_mem_upTo_mul, nextOf]
    split <;> rfl
  | documented =>
    simp only [residual, cons_mem_classLine_mul]
    cases hc : Line.classify l <;> simp [nextOf, hc]
  | body =>
    simp only [residual, cons_mem_kstar_member, cons_mem_extension_mul, cons_mem_declaration_mul,
      cons_mem_doc_mul]
    cases hc : Line.classify l with
    | docStart => cases ho : Line.isOneLineDoc l <;> simp [nextOf, hc, openDoc, ho]
    | _ => simp [nextOf, hc]
  | pending =>
    rw [residual, mem_kstar_mul, cons_mem_extension_mul, cons_mem_declaration_mul]
    cases hc : Line.classify l <;> simp [nextOf, hc, residual]
  | lost => simp [residual, nextOf]

/-- From each phase, the machine ends in front of a member exactly on what may follow there. -/
theorem mem_residual_iff (q : Phase) (lines : List Text) :
    lines.filter (fun l => !Line.isTrash l) ∈ residual q ↔ lines.foldl next q = .body := by
  induction lines generalizing q with
  | nil => exact nil_mem_residual_iff q
  | cons l lines ih =>
    rw [List.foldl_cons, ← ih]
    cases ht : Line.isTrash l with
    | true => simp [next, ht]
    | false => simp [next, ht, cons_mem_residual_iff]

/-! ## Scanners go through the phases -/

/-- The kinds of the stubs read so far, the newest first. -/
def kinds (s : Scanner) : List StubKind := s.stubs.map (·.kind)

/-- Every stub is declared, and the oldest is a class. -/
def Settled (ks : List StubKind) : Prop := .unknown ∉ ks ∧ ks.getLast? = some .classDecl

/-- A doc block has been left without a declaration, or the file starts with a declaration that is
no class. -/
def Spoilt (ks : List StubKind) : Prop :=
  .unknown ∈ ks.tail ∨ ∃ k, ks.getLast? = some k ∧ k ≠ .unknown ∧ k ≠ .classDecl

/-- The phase that a scanner is in, by what is open and the kinds of its stubs. -/
inductive Stands : Phase → Scanner.Mode → List StubKind → Prop
  | start : Stands .start .idle []
  | classDoc {n : Int} : Stands .classDoc (.inDoc n) [.unknown]
  | documented : Stands .documented .idle [.unknown]
  | body {ks : List StubKind} (h : Settled ks) : Stands .body .idle ks
  | doc {n : Int} {ks : List StubKind} (h : Settled ks) : Stands .doc (.inDoc n) (.unknown :: ks)
  | pending {ks : List StubKind} (h : Settled ks) : Stands .pending .idle (.unknown :: ks)
  | code {n : Int} {ks : List StubKind} (h : Settled ks) : Stands .code (.inCode n) ks
  | lost {m : Scanner.Mode} {ks : List StubKind} (h : Spoilt ks) : Stands .lost m ks

namespace Settled

variable {ks : List StubKind} {k : StubKind}

theorem ne_nil (h : Settled ks) : ks ≠ [] := by
  rintro rfl
  cases h.2

theorem getLast?_cons (h : Settled ks) (k : StubKind) : (k :: ks).getLast? = some .classDecl := by
  rw [List.getLast?_cons_of_ne_nil h.ne_nil]
  exact h.2

theorem cons (h : Settled ks) (hk : k ≠ .unknown) : Settled (k :: ks) :=
  ⟨by simpa [hk.symm] using h.1, h.getLast?_cons k⟩

theorem not_spoilt (h : Settled ks) : ¬ Spoilt ks := by
  rintro (hu | ⟨k, hk, -, hne⟩)
  · exact h.1 (List.mem_of_mem_tail hu)
  · rw [h.2] at hk
    exact hne (Option.some.inj hk).symm

end Settled

namespace Spoilt

variable {ks : List StubKind} {k k' : StubKind}

theorem ne_nil (h : Spoilt ks) : ks ≠ [] := by
  rintro rfl
  obtain h | ⟨k, h, -⟩ := h <;> cases h

theorem cons (h : Spoilt ks) (k : StubKind) : Spoilt (k :: ks) := by
  obtain h | ⟨k', h', hk⟩ := h
  · exact .inl (List.mem_of_mem_tail h)
  · refine .inr ⟨k', ?_, hk⟩
    rw [List.getLast?_cons_of_ne_nil (by rintro rfl; cases h')]
    exact h'

/-- Completing the newest stub does not help. -/
theorem complete (h : Spoilt (.unknown :: ks)) (k : StubKind) : Spoilt (k :: ks) := by
  obtain h | ⟨k', h', hk⟩ := h
  · exact .inl h
  · cases ks with
    | nil => cases h'; exact absurd rfl hk.1
    | cons k₁ ks => exact .inr ⟨k', by simpa using h', hk⟩

end Spoilt

variable {n : Int} {q : Phase} {s s' : Scanner} {ks : List StubKind}

theorem next_of_shape (h : Line.classify l ≠ .trash) (q : Phase) : next q l = nextOf l q := by
  rw [next, if_neg (by simp [Scanner.isTrash_eq_false h])]

/-- A declaration that completes the newest stub. -/
theorem stands_complete {f : Stub → Stub} (hc : (Line.classify l).complete? = some f) (st : Stub)
    (hq : Stands q .idle (.unknown :: ks)) :
    Stands (next q l) ((Line.classify l).modeAfter n) ((f st).kind :: ks) := by
  rw [next_of_shape (by rintro h; rw [h] at hc; cases hc)]
  generalize hs : Line.classify l = shape at hc
  cases LineShape.declares_of_complete? hc
  all_goals
    cases hq with
    | documented =>
      simp only [nextOf, hs]
      first
      | exact .body ⟨by simp, rfl⟩
      | exact .lost (.inr ⟨_, rfl, by simp, by simp⟩)
    | body h => exact absurd List.mem_cons_self h.1
    | pending h =>
      simp only [nextOf, hs]
      first
      | exact .code (h.cons (by simp))
      | exact .body (h.cons (by simp))
    | lost h => exact .lost (h.complete _)

/-- A declaration without a doc block. -/
theorem stands_declare {f : Stub → Stub} (hc : (Line.classify l).complete? = some f) (st : Stub)
    (hk : ∀ k ∈ ks.head?, k ≠ .unknown) (hq : Stands q .idle ks) :
    Stands (next q l) ((Line.classify l).modeAfter n) ((f st).kind :: ks) := by
  rw [next_of_shape (by rintro h; rw [h] at hc; cases hc)]
  generalize hs : Line.classify l = shape at hc
  cases LineShape.declares_of_complete? hc
  all_goals
    cases hq with
    | start =>
      simp only [nextOf, hs]
      first
      | exact .body ⟨by simp, rfl⟩
      | exact .lost (.inr ⟨_, rfl, by simp, by simp⟩)
    | documented | pending => exact absurd rfl (hk _ rfl)
    | body h =>
      simp only [nextOf, hs]
      first
      | exact .code (h.cons (by simp))
      | exact .body (h.cons (by simp))
    | lost h => exact .lost (h.cons _)

/-- A doc block opens. -/
theorem stands_openDoc (hc : Line.classify l = .docStart) (hq : Stands q .idle ks) :
    Stands (next q l) (if Line.isOneLineDoc l then .idle else .inDoc n) (.unknown :: ks) := by
  rw [next_of_shape (by rw [hc]; simp)]
  cases hq with
  | start =>
    simp only [nextOf, hc, openDoc]
    split
    · exact .documented
    · exact .classDoc
  | body h =>
    simp only [nextOf, hc, openDoc]
    split
    · exact .pending h
    · exact .doc h
  | documented | pending =>
    simp only [nextOf, hc]
    exact .lost (.inl (by simp))
  | lost h => exact .lost (h.cons _)

/-- A line inside a doc block. -/
theorem stands_doc (ht : Line.isTrash l = false) (hq : Stands q (.inDoc n) ks) :
    Stands (next q l) (if Line.isDocEnd l then .idle else .inDoc n) ks := by
  rw [next, if_neg (by simp [ht])]
  cases hq with
  | classDoc =>
    simp only [nextOf]
    split
    · exact .documented
    · exact .classDoc
  | doc h =>
    simp only [nextOf]
    split
    · exact .pending h
    · exact .doc h
  | lost h => exact .lost h

/-- A line inside a literal. -/
theorem stands_code (ht : Line.isTrash l = false) (hq : Stands q (.inCode n) ks) :
    Stands (next q l) (if Line.isCodeEnd l then .idle else .inCode n) ks := by
  rw [next, if_neg (by simp [ht])]
  cases hq with
  | code h =>
    simp only [nextOf]
    split
    · exact .body h
    · exact .code h
  | lost h => exact .lost h

/-- An extension statement behind a class. -/
theorem stands_extension {p : Text} (hc : Line.classify l = .extension p)
    (hk : ks.getLast? = some .classDecl) (hq : Stands q .idle ks) : Stands (next q l) .idle ks := by
  rw [next_of_shape (by rw [hc]; simp)]
  cases hq with
  | start | documented => cases hk
  | body h =>
    simp only [nextOf, hc]
    exact .body h
  | pending h =>
    simp only [nextOf, hc]
    exact .pending h
  | lost h => exact .lost h

/-- **A scanner goes through the phases of the machine.** -/
theorem stands_next (h : Scanner.Step n l s s') (hq : Stands q s.mode (kinds s)) :
    Stands (next q l) s'.mode (kinds s') := by
  cases h with
  | trash ht => simpa [next, ht] using hq
  | docLine ht he | docEnd ht he =>
    have := stands_doc ht hq
    rw [he] at this
    exact this
  | codeLine ht he | codeEnd ht he =>
    have := stands_code ht hq
    rw [he] at this
    exact this
  | docStart hc ho | oneLineDoc hc ho =>
    have := stands_openDoc (n := n) hc hq
    rw [ho] at this
    exact this
  | @extension p first sts hc hk =>
    have hks : kinds ⟨.idle, sts ++ [{ first with parent := p }]⟩ = kinds ⟨.idle, sts ++ [first]⟩ := by
      simp [kinds]
    rw [hks]
    exact stands_extension hc (by simp [kinds, hk]) hq
  | @complete f st sts hc hk =>
    have hks : kinds ⟨.idle, st :: sts⟩ = .unknown :: sts.map (·.kind) := by simp [kinds, hk]
    rw [hks] at hq
    exact stands_complete hc st hq
  | @declare f sts hc hk =>
    refine stands_declare hc _ ?_ hq
    cases sts with
    | nil => exact nofun
    | cons st sts => simpa [kinds] using hk

/-- Behind a defect no file is possible. -/
theorem next_eq_lost (ht : Line.isTrash l = false) (hd : Line.classify l ≠ .docStart)
    (hc : (Line.classify l).complete? = none)
    (he : ∀ p, Line.classify l = .extension p → ks.getLast? ≠ some .classDecl)
    (hq : Stands q .idle ks) : next q l = .lost := by
  rw [next, if_neg (by simp [ht])]
  cases hq with
  | start | documented => cases hs : Line.classify l <;> simp_all [nextOf, LineShape.complete?]
  | body h =>
    have hx : ∀ p, Line.classify l ≠ .extension p := fun p hp => he p hp h.2
    cases hs : Line.classify l <;> simp_all [nextOf, LineShape.complete?]
  | pending h =>
    have hx : ∀ p, Line.classify l ≠ .extension p := fun p hp => he p hp (h.getLast?_cons _)
    cases hs : Line.classify l <;> simp_all [nextOf, LineShape.complete?]
  | lost h => rfl

theorem foldl_next_lost (lines : List Text) : lines.foldl next .lost = .lost := by
  induction lines with
  | nil => rfl
  | cons l lines ih =>
    have : next .lost l = .lost := by
      unfold next
      split <;> rfl
    rw [List.foldl_cons, this, ih]

/-- The phase after all lines. A scan that ends at a defect has lost its way. -/
theorem stands_steps (file : Text) (hs : s.HasCurrent) (hq : Stands q s.mode (kinds s)) (n : Int)
    (lines : List Text) :
    (∃ s', s.steps file n lines = .ok s' ∧ Stands (lines.foldl next q) s'.mode (kinds s')) ∨
      (∃ f, s.steps file n lines = .error f) ∧ lines.foldl next q = .lost := by
  induction lines generalizing s q n with
  | nil => exact .inl ⟨s, rfl, hq⟩
  | cons l lines ih =>
    obtain ⟨s₁, h₁, hstep⟩ | ⟨f, hf, hfails⟩ := Scanner.step_cases file n l hs
    · rw [Scanner.steps, h₁, List.foldl_cons]
      exact ih (hstep.hasCurrent hs) (stands_next hstep hq) (n + 1)
    · obtain ⟨ht, hm, hd, hc, he⟩ := hfails.idle
      have hlost : next q l = .lost := by
        rw [hm] at hq
        refine next_eq_lost ht hd hc (fun p hp hlast => ?_) hq
        obtain ⟨first, hfirst, hk⟩ : ∃ first, s.stubs.getLast? = some first ∧
            first.kind = .classDecl := by simpa [kinds, List.getLast?_map] using hlast
        exact he p hp first hfirst hk
      rw [Scanner.steps, hf, List.foldl_cons, hlost, foldl_next_lost]
      exact .inr ⟨⟨f, rfl⟩, rfl⟩

theorem finish_ok_iff_settled (file : Text) (s : Scanner) :
    (∃ stubs, s.finish file = .ok stubs) ↔ s.mode = .idle ∧ Settled (kinds s) := by
  have hlast : (∃ first rest, s.stubs.reverse = first :: rest ∧ first.kind = .classDecl) ↔
      (kinds s).getLast? = some .classDecl := by
    rw [kinds, List.getLast?_map, List.getLast?_eq_head?_reverse]
    cases s.stubs.reverse <;> simp
  simp only [Scanner.finish_eq_ok_iff, Settled, ← hlast]
  simp [kinds]

/-- A file may end exactly in front of a member. -/
theorem finish_ok_iff (file : Text) (hq : Stands q s.mode (kinds s)) :
    (∃ stubs, s.finish file = .ok stubs) ↔ q = .body := by
  rw [finish_ok_iff_settled]
  generalize s.mode = m at hq ⊢
  generalize kinds s = ks at hq ⊢
  cases hq with
  | start | classDoc | documented | doc | pending | code => simp [Settled]
  | body h => simp [h]
  | lost h =>
    simp only [reduceCtorEq, iff_false, not_and]
    exact fun _ hset => hset.not_spoilt h

/-- A scan succeeds exactly if the lines take the phases to where a file may end. -/
theorem scan_ok_iff_foldl (name content : Text) : (∃ stubs, scan name content = .ok stubs) ↔
    (sourceLines content).foldl next .start = .body := by
  simp only [Scanner.scan_eq_ok_iff]
  obtain ⟨s, hs, hq⟩ | ⟨⟨f, hf⟩, hlost⟩ :=
    stands_steps name (s := {}) (.inl rfl) .start 1 (sourceLines content)
  · rw [← finish_ok_iff name hq]
    simp [hs]
  · simp [hf, hlost]

/-- **A scan succeeds exactly on the lines of the grammar.** -/
theorem scan_ok_iff (name content : Text) : (∃ stubs, scan name content = .ok stubs) ↔
    (sourceLines content).filter (fun l => !Line.isTrash l) ∈ file := by
  rw [show file = residual .start from rfl, mem_residual_iff, scan_ok_iff_foldl]

end Grammar

end StubDecl
