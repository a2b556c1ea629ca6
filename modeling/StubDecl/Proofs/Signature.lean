import Mathlib.Data.List.Forall2
import Mathlib.Data.List.Induction
import StubDecl.Declaration

/-!
# What a signature takes from the documentation

The types of a doc block are collected line by line, a later tag replacing an earlier one. So what counts is
the last tag of a parameter and the last return tag (`DocTag.IsLast`), and a signature can be said without the
collecting: `Style.ParameterText` for each parameter, `TypeTable.ResultText` for the result, and
`Style.signature_annotate_iff` for the whole.
-/

namespace StubDecl

namespace DocTag

/-- A tag of the parameter `p`. -/
def IsParam (p : Text) (tag : DocTag) : Prop := tag.kind = .param ∧ tag.name = p

/-- A tag of the result. -/
def IsReturn (tag : DocTag) : Prop := tag.kind = .returns

instance (p : Text) : DecidablePred (IsParam p) := fun _ => inferInstanceAs (Decidable (_ ∧ _))

instance : DecidablePred IsReturn := fun tag => inferInstanceAs (Decidable (tag.kind = .returns))

/-- No line has a tag of a sort. -/
def IsAbsent (q : DocTag → Prop) (lines : List Text) : Prop :=
  ∀ l ∈ lines, ∀ tag, parse l = some tag → ¬q tag

/-- The last line with a tag of a sort has the tag `tag`. -/
def IsLast (q : DocTag → Prop) (lines : List Text) (tag : DocTag) : Prop :=
  ∃ before l after, lines = before ++ l :: after ∧ parse l = some tag ∧ q tag ∧ IsAbsent q after

/-- The last tag of a sort. -/
def last? (q : DocTag → Prop) [DecidablePred q] (lines : List Text) : Option DocTag :=
  lines.reverse.findSome? fun l => (parse l).filter fun tag => q tag

variable {q : DocTag → Prop} [DecidablePred q] {lines : List Text} {l : Text} {tag : DocTag}

theorem last?_eq_none_iff : last? q lines = none ↔ IsAbsent q lines := by
  simp [last?, IsAbsent, Option.filter_eq_none_iff]

theorem last?_eq_some_iff : last? q lines = some tag ↔ IsLast q lines tag := by
  have hafter : ∀ ls : List Text, (∀ x ∈ ls, (parse x).filter (fun tag => q tag) = none) ↔
      IsAbsent q ls.reverse := by
    intro ls
    simp [IsAbsent, Option.filter_eq_none_iff]
  simp only [last?, List.findSome?_eq_some_iff, Option.filter_eq_some_iff, decide_eq_true_eq, hafter]
  constructor
  · rintro ⟨after, l, before, hlines, ⟨hl, hq⟩, habsent⟩
    refine ⟨before.reverse, l, after.reverse, ?_, hl, hq, habsent⟩
    rw [List.reverse_eq_iff.mp hlines]
    simp
  · rintro ⟨before, l, after, rfl, hl, hq, habsent⟩
    exact ⟨after.reverse, l, before.reverse, by simp, ⟨hl, hq⟩, by rwa [List.reverse_reverse]⟩

theorem last?_concat_of_some (hl : parse l = some tag) :
    last? q (lines ++ [l]) = if q tag then some tag else last? q lines := by
  rw [last?, List.reverse_concat, List.findSome?_cons, hl, Option.filter_some]
  by_cases hq : q tag
  · simp only [hq, decide_true, if_true]
  · simp only [hq, decide_false, Bool.false_eq_true, if_false]
    rfl

theorem last?_concat_of_none (hl : parse l = none) : last? q (lines ++ [l]) = last? q lines := by
  rw [last?, List.reverse_concat, List.findSome?_cons, hl]
  rfl

end DocTag

namespace TypeTable

variable (m : TypeTable)

/-- What a token stands for: what an override says, else what the built-in table says, else itself. -/
inductive Gives (token : Text) : Text → Prop
  | override {t : Text} (h : m.overrides.get? token = some t) : Gives token t
  | builtin {t : Text} (h : m.overrides.get? token = none)
      (hb : TextMap.get? TypeTable.builtin token = some t) : Gives token t
  | itself (h : m.overrides.get? token = none) (hb : TextMap.get? TypeTable.builtin token = none) :
      Gives token token

theorem gives_iff {token t : Text} : m.Gives token t ↔ m.normalize token = t := by
  constructor
  · intro h
    cases h with
    | override h => rw [normalize, h]
    | builtin h hb => rw [normalize, h, hb]; rfl
    | itself h hb => rw [normalize, h, hb]; rfl
  · rintro rfl
    rw [normalize]
    split
    · next h => exact .override h
    · next h =>
      cases hb : TextMap.get? TypeTable.builtin token with
      | some t => exact .builtin h hb
      | none => exact .itself h hb

/-! ## The types that are collected -/

theorem docTypes_concat (lines : List Text) (l : Text) :
    m.docTypes (lines ++ [l]) = m.addLine (m.docTypes lines) l := List.foldl_concat ..

/-- A parameter has the type of its last tag. -/
theorem get?_docTypes (lines : List Text) (p : Text) :
    (m.docTypes lines).params.get? p =
      (DocTag.last? (DocTag.IsParam p) lines).map fun tag => m.normalize tag.type := by
  induction lines using List.reverseRecOn with
  | nil => rfl
  | append_singleton lines l ih =>
    rw [docTypes_concat, addLine]
    split
    · next ty n hl => rw [DocTag.last?_concat_of_some hl, if_neg (by simp [DocTag.IsParam]), ih]
    · next ty n hl =>
      rw [DocTag.last?_concat_of_some hl, TextMap.get?_insert, ih]
      by_cases hn : p = n
      · rw [if_pos hn, if_pos ⟨rfl, hn.symm⟩]
        rfl
      · rw [if_neg hn, if_neg fun h => hn h.2.symm]
    · next hl => rw [DocTag.last?_concat_of_none hl, ih]

/-- The result has the type of the last return tag. -/
theorem docTypes_returns (lines : List Text) :
    (m.docTypes lines).returns =
      ((DocTag.last? DocTag.IsReturn lines).map fun tag => m.normalize tag.type).getD void := by
  induction lines using List.reverseRecOn with
  | nil => rfl
  | append_singleton lines l ih =>
    rw [docTypes_concat, addLine]
    split
    · next ty n hl =>
      rw [DocTag.last?_concat_of_some hl]
      rfl
    · next ty n hl =>
      rw [DocTag.last?_concat_of_some hl, if_neg (by simp [DocTag.IsReturn]), ih]
    · next hl => rw [DocTag.last?_concat_of_none hl, ih]

/-- The result in a signature: what the type of the last return tag stands for, and void if there is no such
tag or nothing is left of its type. -/
inductive ResultText (lines : List Text) : Text → Prop
  | typed {tag : DocTag} {t : Text} (hlast : DocTag.IsLast DocTag.IsReturn lines tag)
      (ht : m.Gives tag.type t) (hne : t ≠ []) : ResultText lines t
  | empty {tag : DocTag} (hlast : DocTag.IsLast DocTag.IsReturn lines tag) (ht : m.Gives tag.type []) :
      ResultText lines void
  | undocumented (hno : DocTag.IsAbsent DocTag.IsReturn lines) : ResultText lines void

theorem resultText_iff {lines : List Text} {t : Text} : m.ResultText lines t ↔
    (if (m.docTypes lines).returns.isEmpty then void else (m.docTypes lines).returns) = t := by
  rw [docTypes_returns]
  constructor
  · intro h
    cases h with
    | typed hlast ht hne =>
      rw [DocTag.last?_eq_some_iff.mpr hlast, Option.map_some, m.gives_iff.mp ht]
      simp [hne]
    | empty hlast ht =>
      rw [DocTag.last?_eq_some_iff.mpr hlast, Option.map_some, m.gives_iff.mp ht]
      rfl
    | undocumented hno =>
      rw [DocTag.last?_eq_none_iff.mpr hno]
      rfl
  · rintro rfl
    cases h : DocTag.last? DocTag.IsReturn lines with
    | none => exact .undocumented (DocTag.last?_eq_none_iff.mp h)
    | some tag =>
      have hlast := DocTag.last?_eq_some_iff.mp h
      rw [Option.map_some, Option.getD_some]
      split
      · next hempty =>
        exact .empty hlast (m.gives_iff.mpr (List.isEmpty_iff.mp hempty))
      · next hne => exact .typed hlast (m.gives_iff.mpr rfl) (by simpa using hne)

end TypeTable

namespace Style

variable (m : TypeTable) (y : Style)

/-- A parameter in a signature, for the lines of a doc block: a rest parameter has the type of all rest
parameters, any other that of its last tag, and none if it has no tag. -/
inductive ParameterText (lines : List Text) (p : Text) : Text → Prop
  | rest {r : Text} (hrest : Parameter.restName? p = some r) :
      ParameterText lines p ("..." ++ r ++ ": " ++ y.restType)
  | typed {tag : DocTag} {t : Text} (hrest : Parameter.restName? p = none)
      (hlast : DocTag.IsLast (DocTag.IsParam p) lines tag) (ht : m.Gives tag.type t) :
      ParameterText lines p (p ++ "?: " ++ t)
  | untyped (hrest : Parameter.restName? p = none) (hno : DocTag.IsAbsent (DocTag.IsParam p) lines) :
      ParameterText lines p (p ++ "?")

theorem parameterText_iff {lines : List Text} {p t : Text} :
    y.ParameterText m lines p t ↔ y.parameter (m.docTypes lines).params p = t := by
  rw [parameter, m.get?_docTypes]
  constructor
  · intro h
    cases h with
    | rest hrest => rw [hrest]
    | typed hrest hlast ht => rw [hrest, DocTag.last?_eq_some_iff.mpr hlast, ← m.gives_iff.mp ht]; rfl
    | untyped hrest hno => rw [hrest, DocTag.last?_eq_none_iff.mpr hno]; rfl
  · rintro rfl
    cases hrest : Parameter.restName? p with
    | some r => exact .rest hrest
    | none =>
      cases h : DocTag.last? (DocTag.IsParam p) lines with
      | none => exact .untyped hrest (DocTag.last?_eq_none_iff.mp h)
      | some tag => exact .typed hrest (DocTag.last?_eq_some_iff.mp h) (m.gives_iff.mpr rfl)

/-- **A signature follows the documentation, the last tag winning.** It consists of the parameters in their
order and of the result, each with what the last tag about it says. -/
theorem signature_annotate_iff (s : Stub) (t : Text) : y.signature (s.annotate m) = t ↔
    ∃ ps r, List.Forall₂ (y.ParameterText m s.docLines) s.params ps ∧ m.ResultText s.docLines r ∧
      t = "(" ++ Text.joinWith ", " ps ++ "): " ++ r := by
  have hparameter : y.ParameterText m s.docLines =
      fun p u => y.parameter (m.docTypes s.docLines).params p = u := by
    funext p u
    exact propext (y.parameterText_iff m)
  have hparams : ∀ ps, List.Forall₂ (y.ParameterText m s.docLines) s.params ps ↔
      s.params.map (y.parameter (m.docTypes s.docLines).params) = ps := by
    intro ps
    rw [hparameter, ← List.forall₂_map_left_iff, List.forall₂_eq_eq_eq]
  constructor
  · rintro rfl
    exact ⟨_, _, (hparams _).mpr rfl, m.resultText_iff.mpr rfl, rfl⟩
  · rintro ⟨ps, r, hps, hr, rfl⟩
    rw [← (hparams ps).mp hps, ← m.resultText_iff.mp hr]
    rfl

/-- Of two tags the later one counts, an override counts before the built-in table, and a rest parameter has no
documented type. -/
example : signature {} (Stub.annotate ⟨[("int", "integer"), ("nil", "")]⟩
    { line := 1
      docLines := [" * @param \x7blong\x7d a", " * @param \x7bint\x7d a first", " * @param \x7bint\x7d r",
        " * @return \x7blong\x7d it", " * @return \x7bnil\x7d nothing"]
      params := ["a", "/*...*/r", "b"] }) = "(a?: integer, ...r: string[], b?): void" := by
  decide +kernel

end Style

end StubDecl
