import StubDecl.Proofs.Line.Shape
import StubDecl.Proofs.Scan.Lines
import StubDecl.Proofs.Scan.Run

/-!
# Properties with plain values

A line `C.prototype.P = V` gives a property of a prototype a value. It is to be dropped if the value is no
function, but what is dropped is decided by the word at the start of the value: a value that starts with a
letter or digit is dropped in every state of a scan, and no other is (`Scanner.step_property_iff`). A negative
number, a quoted text or a list is a line of the block that is open, and a defect where none is.
-/

namespace StubDecl

namespace Text

/-- The start of a text within a class of bytes decides which texts of this class the text starts with. -/
theorem startsWith_takeWhile {p : UInt8 → Bool} {pre : Text} (hpre : ∀ b ∈ pre, p b = true) (t : Text) :
    startsWith (t.takeWhile p) pre = startsWith t pre := by
  rw [Bool.eq_iff_iff, startsWith, startsWith, List.isPrefixOf_iff_prefix, List.isPrefixOf_iff_prefix]
  constructor
  · exact fun h => h.trans (List.takeWhile_prefix p)
  · rintro ⟨r, rfl⟩
    rw [List.takeWhile_append_of_pos hpre]
    exact List.prefix_append _ _

end Text

namespace Line

/-- The line that gives the property `p` of the prototype of `c` the value `v`. -/
def property (c p v : Text) : Text := c ++ (".prototype." ++ (p ++ (" = " ++ v)))

/-- A letter or digit comes first. -/
def StartsWord (t : Text) : Prop := t.head?.any Ascii.isAlnum = true

instance (t : Text) : Decidable (StartsWord t) := inferInstanceAs (Decidable (_ = true))

variable {c p v : Text}

theorem word?_eq_of_startsWord (h : StartsWord v) :
    word? v = some (v.takeWhile Ascii.isAlnum, v.dropWhile Ascii.isAlnum) := by
  cases v with
  | nil => cases h
  | cons b v =>
    have hb : Ascii.isAlnum b = true := h
    simp [word?, hb]

theorem word?_eq_none (h : ¬StartsWord v) : word? v = none := by
  cases v with
  | nil => rfl
  | cons b v =>
    have hb : Ascii.isAlnum b = false := by simpa [StartsWord] using h
    simp [word?, hb]

theorem endsWord_value (v : Text) : EndsWord ((" = " : Text) ++ v) :=
  endsWord_cons (b := 0x20) (by decide) _

theorem afterWord?_property (hc : IsWord c) (sep : Text) :
    afterWord? sep (property c p v) = Text.dropPrefix? (".prototype." ++ (p ++ (" = " ++ v))) sep :=
  afterWord?_append hc (endsWord_cons (by decide) _) sep

/-- The value of a property is the word that its text starts with. -/
theorem propertyValue?_property (hc : IsWord c) (hp : IsWord p) :
    propertyValue? (property c p v) = (word? v).map (·.1) := by
  have hname : afterWord? " = " (p ++ (" = " ++ v)) = some v := by
    rw [afterWord?_append hp (endsWord_value v), Text.dropPrefix?_append]
  rw [propertyValue?, afterWord?_property hc, Text.dropPrefix?_append]
  simp only [Option.bind_eq_bind, Option.bind_some, hname]
  cases word? v <;> rfl

/-- A property is dropped if its value starts with a letter or digit, but not with `function`. -/
theorem isTrash_property (hc : IsWord c) (hp : IsWord p) :
    isTrash (property c p v) = true ↔ StartsWord v ∧ v.startsWith "function" = false := by
  have hvalue := propertyValue?_property (v := v) hc hp
  by_cases hv : StartsWord v
  · have hstart : Text.startsWith (v.takeWhile Ascii.isAlnum) "function" = v.startsWith "function" :=
      Text.startsWith_takeWhile (by decide +kernel) v
    rw [word?_eq_of_startsWord hv, Option.map_some] at hvalue
    cases hf : v.startsWith "function" with
    | true =>
      have hnot : isTrash (property c p v) = false := by
        refine isTrash_word hc _ ?_
        rw [show c ++ _ = property c p v from rfl, hvalue]
        rintro _ ⟨rfl⟩
        exact hstart.trans hf
      simp [hnot]
    | false =>
      have htrash : isTrash (property c p v) = true := by
        rw [isTrash, hvalue]
        simp [hstart, hf]
      simp [htrash, hv]
  · have hnot : isTrash (property c p v) = false := by
      refine isTrash_word hc _ ?_
      rw [show c ++ _ = property c p v from rfl, hvalue, word?_eq_none hv]
      simp
    simp [hnot, hv]

/-! ## The shape of a property that is not dropped -/

theorem extension?_property (hc : IsWord c) : extension? (property c p v) = none := by
  rw [extension?, afterWord?_property hc]
  rfl

theorem class?_property (hc : IsWord c) : class? (property c p v) = none := class?_dot hc _

/-- A property is a method if its value is a function, blanks in front of it being skipped. -/
theorem method?_property (hc : IsWord c) (hp : IsWord p)
    (hv : (skipBlanks v).startsWith "function(" = false) : method? (property c p v) = none := by
  have hequals : skipBlanks (" = " ++ v) = ("=" : Text) ++ 0x20 :: v := rfl
  have hblank : skipBlanks (0x20 :: v) = skipBlanks v := rfl
  have hvalue : Text.dropPrefix? (skipBlanks v) "function(" = none := by
    rw [Option.eq_none_iff_forall_not_mem]
    intro r hr
    rw [Text.eq_append_of_dropPrefix? hr, Text.startsWith, List.isPrefixOf_iff_prefix.mpr] at hv
    · cases hv
    · exact List.prefix_append _ _
  rw [method?, afterWord?_property hc, Text.dropPrefix?_append]
  simp only [Option.bind_eq_bind, Option.bind_some, word?_append hp (endsWord_value v),
    hequals, Text.dropPrefix?_append, hblank, hvalue, Option.bind_none]

/-- A property is a variable if the name of its class starts with `var`. -/
theorem isVariable_property (hc : IsWord c) :
    isVariable (property c p v) = c.startsWith "var" := by
  have hstart : Text.startsWith (property c p v) "var" = c.startsWith "var" := by
    have htake : (property c p v).takeWhile Ascii.isAlnum = c :=
      Text.takeWhile_append_stop hc.isAlnum (endsWord_cons (by decide) _)
    rw [← Text.startsWith_takeWhile (p := Ascii.isAlnum) (by decide +kernel) (property c p v), htake]
  rw [isVariable, hstart, afterWord?_property hc]
  exact Bool.or_false _

/-- A property opens a literal only if its value does. -/
theorem isCodeStart_property (hv : isCodeStart v = false) : isCodeStart (property c p v) = false := by
  have hblank : property c p v = c ++ (".prototype." : Text) ++ p ++ (" =" : Text) ++ 0x20 :: v := by
    simp only [property, List.append_assoc]
    rfl
  rw [hblank, isCodeStart_append_cons]
  cases v with
  | nil => rfl
  | cons b v => exact (isCodeStart_append_cons [0x20] b v).trans hv

/-- A line declares nothing if it opens no literal and is no class, method or variable. -/
theorem complete?_classify_eq_none {t : Text} (hopen : isCodeStart t = false) (hclass : class? t = none)
    (hmethod : method? t = none) (hvar : isVariable t = false) : (classify t).complete? = none := by
  simp only [classify, hopen, hclass, hmethod, hvar, Bool.false_eq_true, if_false]
  repeat' split
  all_goals rfl

end Line

namespace Scanner

variable {file line : Text} {n : Int} {s s' : Scanner}

/-- A line that is not dropped and gives no parent is one line more for the stubs. -/
theorem Step.length_lines (h : Step n line s s') (ht : Line.isTrash line = false)
    (he : ∀ p, Line.classify line ≠ .extension p) :
    (s'.stubs.flatMap Stub.lines).length = (s.stubs.flatMap Stub.lines).length + 1 := by
  cases h with
  | trash ht' =>
    rw [ht] at ht'
    cases ht'
  | docLine | docEnd | codeLine | codeEnd =>
    simp only [List.flatMap_cons, List.length_append, Stub.lines, Stub.withDoc, Stub.withCode,
      List.length_singleton]
    omega
  | docStart | oneLineDoc =>
    simp only [List.flatMap_cons, List.length_append, Stub.lines, List.length_singleton, List.length_nil]
    omega
  | extension hc => exact absurd hc (he _)
  | @complete f st sts hc =>
    obtain ⟨hdoc, hcode, -⟩ := LineShape.complete?_frame hc st
    simp only [List.flatMap_cons, List.length_append, Stub.lines, Stub.withCode, hdoc, hcode,
      List.length_singleton]
    omega
  | declare hc =>
    obtain ⟨hdoc, hcode, -⟩ := LineShape.complete?_frame hc { line := n }
    simp only [List.flatMap_cons, List.length_append, Stub.lines, Stub.withCode, hdoc, hcode,
      List.length_singleton, List.length_nil]
    omega

/-- **Which values are dropped.** A property leaves a scan as it is exactly if its value starts with a letter
or digit, but not with `function`. Where no block is open, a value that starts with any other byte is a defect,
unless the line opens a literal, the value is a function behind blanks, or the name of the class starts with
`var`. -/
theorem step_property_iff {c p : Text} (hc : IsWord c) (hp : IsWord p) (hs : s.HasCurrent) (file : Text)
    (n : Int) (v : Text) :
    (step file s n (Line.property c p v) = .ok s ↔ Line.StartsWord v ∧ v.startsWith "function" = false) ∧
      (s.mode = .idle → ¬Line.StartsWord v → Line.isCodeStart v = false →
        (Line.skipBlanks v).startsWith "function(" = false → c.startsWith "var" = false →
        ∃ f, step file s n (Line.property c p v) = .error f ∧
          f.cause = .defect ⟨.unrecognizedLine, file, n, Line.property c p v⟩) := by
  have hparent : ∀ q, Line.classify (Line.property c p v) ≠ .extension q := by
    intro q hq
    have hnone := Line.extension?_property (p := p) (v := v) hc
    rw [Line.extension?_of_classify hq] at hnone
    cases hnone
  rw [← Line.isTrash_property hc hp]
  constructor
  · constructor
    · intro h
      by_contra ht
      have hlines := (step_ok hs h).length_lines (by simpa using ht) hparent
      omega
    · exact step_trash
  · intro hidle hv hopen hmethod hvar
    have ht : Line.isTrash (Line.property c p v) = false := by
      rw [Bool.eq_false_iff, ne_eq, Line.isTrash_property hc hp]
      exact fun h => hv h.1
    have hdoc : Line.classify (Line.property c p v) ≠ .docStart := by
      intro hstart
      have hno : Line.isDocStart (Line.property c p v) = false := Line.startsWith_word hc (by decide) _ _
      rw [Line.isDocStart_of_classify hstart] at hno
      cases hno
    have hnone : (Line.classify (Line.property c p v)).complete? = none :=
      Line.complete?_classify_eq_none (Line.isCodeStart_property hopen) (Line.class?_property hc)
        (Line.method?_property hc hp hmethod) ((Line.isVariable_property hc).trans hvar)
    obtain ⟨mode, sts⟩ := s
    obtain rfl : mode = .idle := hidle
    exact ⟨_, (Fails.unrecognized ht hdoc hnone hparent).step_eq, rfl⟩

/-- A scanner that has read a class line. -/
def behindClass : Scanner :=
  { stubs := [{ line := 1, kind := .classDecl, codeLines := ["function A() \x7b\x7d"], className := "A" }] }

/-- A positive number is dropped, a negative one is a defect. -/
theorem step_property_iff_negative :
    step "A.js" behindClass 2 "A.prototype.depth = 16;" = .ok behindClass ∧
      ∃ f, step "A.js" behindClass 2 "A.prototype.depth = -16;" = .error f ∧
        f.cause = .defect ⟨.unrecognizedLine, "A.js", 2, "A.prototype.depth = -16;"⟩ :=
  have hvalue := @step_property_iff behindClass "A" "depth" (by decide) (by decide) (.inl rfl) "A.js" 2
  ⟨(hvalue "16;").1.mpr (by decide),
    (hvalue "-16;").2 rfl (by decide) (by decide) (by decide) (by decide)⟩

end Scanner

end StubDecl
