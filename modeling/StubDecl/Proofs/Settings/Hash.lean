import StubDecl.Proofs.Json.Scalar
import StubDecl.Proofs.Settings.Rendering
import StubDecl.Proofs.Text.Order
import StubDecl.Settings.Hash
import StubDecl.Settings.Validation

/-!
# What the hash of the render settings covers

The record that is hashed gives the indentation, and the rest type and the override equations up to
stray bytes (`Settings.of_renderingRecord_eq`). An equation does not say where its source ends:
`a = b=c` and `a=b = c` are written alike. So settings with one record need not convert files to the
same results. `Settings.sameRendering_of_renderingRecord` says when they do, and that they do if no
source has an equals sign and all texts are UTF-8.
-/

namespace StubDecl

namespace Json

/-! ## Strings in an array -/

theorem string_append_inj {t u r r' : Text} (h : string t ++ r = string u ++ r') :
    t.repair = u.repair ∧ r = r' := by
  have hread : ∀ t r, string? ((string t ++ r).tail) = some (Text.repair t, r) := by
    intro t r
    have htail : (string t ++ r).tail = t.units.flatMap (escape true) ++ 0x22 :: r := by
      simp [string]
    rw [htail, string?_string]
  have hsame := (hread t r).symm.trans (h ▸ hread u r')
  exact Prod.mk.inj (Option.some.inj hsame)

/-- What stands behind a string of an array that `ts` follow in. -/
def behindString : List Text → Text
  | [] => "]\x7d"
  | t :: ts => ("," : Text) ++ (Text.joinWith "," ((t :: ts).map string) ++ "]\x7d")

theorem joinWith_string_cons (t : Text) (ts : List Text) :
    Text.joinWith "," ((t :: ts).map string) ++ ("]\x7d" : Text) = string t ++ behindString ts := by
  cases ts with
  | nil => rfl
  | cons u ts =>
    rw [List.map_cons, Text.joinWith_cons _ _ (by simp), List.append_assoc, List.append_assoc]
    rfl

/-- The strings of an array are read back one after the other. -/
theorem strings_append_inj {ts us : List Text}
    (h : Text.joinWith "," (ts.map string) ++ ("]\x7d" : Text) =
      Text.joinWith "," (us.map string) ++ ("]\x7d" : Text)) :
    ts.map Text.repair = us.map Text.repair := by
  induction ts generalizing us with
  | nil =>
    cases us with
    | nil => rfl
    | cons u us =>
      -- a bracket against a quote
      rw [joinWith_string_cons] at h
      cases h
  | cons t ts ih =>
    cases us with
    | nil =>
      rw [joinWith_string_cons] at h
      cases h
    | cons u us =>
      rw [joinWith_string_cons, joinWith_string_cons] at h
      obtain ⟨hfirst, hrest⟩ := string_append_inj h
      rw [List.map_cons, List.map_cons, hfirst]
      refine congrArg _ ?_
      cases ts <;> cases us
      · rfl
      · cases hrest
      · cases hrest
      · exact ih (List.append_cancel_left hrest)

end Json

theorem Text.isUtf8_append_ascii {b : UInt8} (hb : b.toNat < 0x80) {t u : Text}
    (ht : t.isUtf8 = true) (hu : u.isUtf8 = true) : isUtf8 (t ++ b :: u) = true := by
  rw [isUtf8] at ht hu
  rw [isUtf8, units_append_ascii hb, List.all_append, List.all_cons, ht, hu]
  rfl

/-- In a map without repeated keys, the entries are what is looked up. -/
theorem TextMap.get?_eq_some_iff {o : TextMap} (h : (o.map Prod.fst).Nodup) {k v : Text} :
    o.get? k = some v ↔ (k, v) ∈ o := by
  induction o with
  | nil => simp [get?]
  | cons e o ih =>
    obtain ⟨hnew, ho⟩ := List.nodup_cons.mp h
    rw [get?_cons, List.mem_cons]
    by_cases hk : k = e.1
    · have hnotMem : (k, v) ∉ o := fun hmem => hnew (hk ▸ List.mem_map_of_mem (f := Prod.fst) hmem)
      rw [if_pos hk, Option.some.injEq, or_iff_left hnotMem, Prod.ext_iff]
      exact ⟨fun hv => ⟨hk, hv.symm⟩, fun hv => hv.2.symm⟩
    · rw [if_neg hk, ih ho, or_iff_right]
      rintro rfl
      exact hk rfl

namespace Settings

variable {s t : Settings}

/-! ## Reading the record -/

/-- What two settings have in common if their records are the same. -/
theorem of_renderingRecord_eq (h : s.renderingRecord = t.renderingRecord) :
    s.render.indent = t.render.indent ∧ s.render.restType.repair = t.render.restType.repair ∧
      s.overrideEquations.map Text.repair = t.overrideEquations.map Text.repair := by
  have hcomma : ∀ u : Text, Json.Follows ((",\"rest_type\":" : Text) ++ u) := fun u => ⟨_, .inl rfl⟩
  simp only [renderingRecord, List.append_assoc] at h
  have hnumber := congrArg Json.numeral? (List.append_cancel_left h)
  rw [Json.numeral?_ofInt _ (hcomma _), Json.numeral?_ofInt _ (hcomma _)] at hnumber
  obtain ⟨hindent, hrest⟩ := Prod.mk.inj (Option.some.inj hnumber)
  obtain ⟨hrestType, hequations⟩ := Json.string_append_inj (List.append_cancel_left hrest)
  refine ⟨?_, hrestType, Json.strings_append_inj (List.append_cancel_left hequations)⟩
  have hback := congrArg Json.int64? hindent
  rw [Json.int64?_ofInt, Json.int64?_ofInt] at hback
  exact Option.some.inj hback

/-! ## Legible settings -/

/-- Settings that their record determines: sources of overrides are all different and without equals
sign, and all texts are UTF-8. -/
structure Legible (s : Settings) : Prop where
  nodup : (s.types.overrides.map Prod.fst).Nodup
  noEquals : ∀ e ∈ s.types.overrides, 0x3d ∉ e.1
  utf8 : ∀ e ∈ s.types.overrides, e.1.isUtf8 = true ∧ e.2.isUtf8 = true
  restType : s.render.restType.isUtf8 = true

/-- An override as an equation. -/
def equation (e : Text × Text) : Text := e.1 ++ "=" ++ e.2

theorem mem_overrideEquations {u : Text} :
    u ∈ s.overrideEquations ↔ ∃ e ∈ s.types.overrides, equation e = u := by
  rw [overrideEquations, Text.sort, List.mem_mergeSort, List.mem_map]
  rfl

theorem equation_eq (e : Text × Text) : equation e = e.1 ++ 0x3d :: e.2 := by
  rw [equation, List.append_assoc]
  rfl

/-- The first equals sign ends the source. -/
theorem equation_inj {e e' : Text × Text} (he : 0x3d ∉ e.1) (he' : 0x3d ∉ e'.1)
    (h : equation e = equation e') : e = e' := by
  rw [equation_eq, equation_eq] at h
  have hcut := congrArg (Text.splitOn 0x3d) h
  rw [Text.splitOn_append_sep he, Text.splitOn_append_sep he'] at hcut
  have hsource : e.1 = e'.1 := (List.cons.inj hcut).1
  rw [hsource] at h
  exact Prod.ext hsource (List.cons.inj (List.append_cancel_left h)).2

/-- The equations of legible settings are written as they are. -/
theorem Legible.map_repair (h : s.Legible) :
    s.overrideEquations.map Text.repair = s.overrideEquations := by
  conv_rhs => rw [← List.map_id s.overrideEquations]
  refine List.map_congr_left fun u hu => ?_
  obtain ⟨e, he, rfl⟩ := mem_overrideEquations.mp hu
  rw [equation_eq]
  exact (Text.repair_eq_self_iff _).mpr
    (Text.isUtf8_append_ascii (by decide) (h.utf8 e he).1 (h.utf8 e he).2)

/-- An override of legible settings is one of all legible settings with the same equations. -/
theorem Legible.mem_of_mem (hs : s.Legible) (ht : t.Legible)
    (h : s.overrideEquations = t.overrideEquations) {e : Text × Text} (he : e ∈ s.types.overrides) :
    e ∈ t.types.overrides := by
  have hmem : equation e ∈ t.overrideEquations := h ▸ mem_overrideEquations.mpr ⟨e, he, rfl⟩
  obtain ⟨e', he', heq⟩ := mem_overrideEquations.mp hmem
  exact equation_inj (ht.noEquals e' he') (hs.noEquals e he) heq ▸ he'

theorem Legible.get?_eq (hs : s.Legible) (ht : t.Legible)
    (h : s.overrideEquations = t.overrideEquations) (k : Text) :
    s.types.overrides.get? k = t.types.overrides.get? k := by
  refine Option.ext fun v => ?_
  rw [TextMap.get?_eq_some_iff hs.nodup, TextMap.get?_eq_some_iff ht.nodup]
  exact ⟨hs.mem_of_mem ht h, ht.mem_of_mem hs h.symm⟩

/-! ## Settings with one record -/

/-- Both settings convert every file to the same result, be it a block or a failure. -/
def SameRendering (s t : Settings) : Prop :=
  ∀ path content, convertFile s.typeTable s.style path content =
    convertFile t.typeTable t.style path content

theorem sameRendering_iff : s.SameRendering t ↔ s.style = t.style ∧ s.typeTable.Agree t.typeTable :=
  convertFile_eq_iff

/-- Legible settings with one record convert files in the same way. -/
theorem Legible.sameRendering (hs : s.Legible) (ht : t.Legible)
    (h : s.renderingRecord = t.renderingRecord) : s.SameRendering t := by
  obtain ⟨hindent, hrestType, hequations⟩ := of_renderingRecord_eq h
  rw [(Text.repair_eq_self_iff _).mpr hs.restType, (Text.repair_eq_self_iff _).mpr ht.restType]
    at hrestType
  rw [hs.map_repair, ht.map_repair] at hequations
  refine sameRendering_iff.mpr ⟨?_, fun ty => ?_⟩
  · rw [style, style, hindent, hrestType]
  · simp only [TypeTable.normalize, typeTable, hs.get?_eq ht hequations]

/-- **When settings with one record convert files in the same way**: exactly if they write rest
parameters alike and agree on all source types. They do if both are legible. -/
theorem sameRendering_of_renderingRecord (h : s.renderingRecord = t.renderingRecord) :
    (s.SameRendering t ↔
      s.style.restType = t.style.restType ∧ s.typeTable.Agree t.typeTable) ∧
    (s.Legible → t.Legible → s.SameRendering t) := by
  have hindent : s.style.indent = t.style.indent := by
    rw [style, style, (of_renderingRecord_eq h).1]
    rfl
  refine ⟨?_, fun hs ht => hs.sameRendering ht h⟩
  rw [sameRendering_iff]
  constructor
  · rintro ⟨hstyle, hagree⟩
    exact ⟨congrArg Style.restType hstyle, hagree⟩
  · rintro ⟨hrestType, hagree⟩
    exact ⟨Style.eq_of_fields hindent hrestType, hagree⟩

/-- Default settings with given overrides. -/
def overriding (o : TextMap) : Settings := { types := { overrides := o } }

/-- Valid settings with one record each. An equals sign in a source makes them convert files in
different ways; the order of overrides does not. -/
theorem sameRendering_of_renderingRecord_equals :
    (overriding [("a", "b=c")]).validate = .ok ⟨⟩ ∧ (overriding [("a=b", "c")]).validate = .ok ⟨⟩ ∧
      (overriding [("a", "b=c")]).renderingRecord = (overriding [("a=b", "c")]).renderingRecord ∧
      ¬ (overriding [("a", "b=c")]).SameRendering (overriding [("a=b", "c")]) ∧
      (overriding [("a", "b=c"), ("d", "e")]).SameRendering (overriding [("d", "e"), ("a", "b=c")]) := by
  have hequals : (overriding [("a", "b=c")]).renderingRecord =
      (overriding [("a=b", "c")]).renderingRecord := by decide +kernel
  have horder : (overriding [("a", "b=c"), ("d", "e")]).renderingRecord =
      (overriding [("d", "e"), ("a", "b=c")]).renderingRecord := by
    have hsort : (overriding [("a", "b=c"), ("d", "e")]).overrideEquations =
        (overriding [("d", "e"), ("a", "b=c")]).overrideEquations :=
      Text.sort_eq_of_perm (.swap _ _ _)
    rw [renderingRecord, hsort]
    rfl
  refine ⟨rfl, rfl, hequals, fun hsame => ?_, ?_⟩
  · have hagree := ((sameRendering_of_renderingRecord hequals).1.mp hsame).2 ⟨"a", by decide, by decide⟩
    exact absurd hagree (by decide)
  · exact (sameRendering_of_renderingRecord horder).2 ⟨by decide, by decide, by decide, by decide⟩
      ⟨by decide, by decide, by decide, by decide⟩

end Settings

end StubDecl
