import StubDecl.Proofs.Line.Shape

/-!
# Which parameter lists a method line carries

Nothing asks for the parenthesis behind the parameters of a method line: the line carries the longest
parameter list that stands behind the opening parenthesis (`Parameter.list_isLongest`). It is all that stands
between the parentheses exactly if that is a parameter list (`Line.params_eq_iff`); what stands between them
but cannot be read, such as an underscore, ends the list.
-/

namespace StubDecl

namespace Parameter

/-- What can be read as a parameter list: parameters, each with at most one comma and then at most one
blank behind it. -/
inductive IsList : Text → Prop
  | nil : IsList []
  | cons {w s t : Text} : w ≠ [] → (∀ b ∈ w, isByte b = true) →
      s ∈ ([[], ",", " ", ", "] : List Text) → IsList t → IsList (w ++ (s ++ t))

/-- What is read is a start of the text. -/
theorem listFrom_isPrefix (p : Progress) (t : Text) : listFrom p t <+: t := by
  induction t generalizing p with
  | nil => exact List.prefix_rfl
  | cons b t ih =>
    rw [listFrom]
    split
    · next q _ => exact List.cons_prefix_cons.mpr ⟨rfl, ih q⟩
    · exact List.nil_prefix

/-- What was read is read again as a whole. -/
theorem listFrom_listFrom (p : Progress) (t : Text) : listFrom p (listFrom p t) = listFrom p t := by
  induction t generalizing p with
  | nil => rfl
  | cons b t ih =>
    cases hb : p.next? b with
    | none => simp only [listFrom, hb]
    | some q => simp only [listFrom, hb, ih q]

/-- All starts that are read as a whole are starts of what is read. -/
theorem prefix_listFrom {p : Progress} {t u : Text} (hu : u <+: t) (h : listFrom p u = u) :
    u <+: listFrom p t := by
  induction t generalizing p u with
  | nil => rw [List.prefix_nil.mp hu]; exact List.nil_prefix
  | cons b t ih =>
    cases u with
    | nil => exact List.nil_prefix
    | cons c u =>
      obtain ⟨rfl, htail⟩ := List.cons_prefix_cons.mp hu
      cases hc : p.next? c with
      | none => simp [listFrom, hc] at h
      | some q =>
        simp only [listFrom, hc, List.cons.injEq, true_and] at h
        simp only [listFrom, hc]
        exact List.cons_prefix_cons.mpr ⟨rfl, ih htail h⟩

/-- The closing parenthesis ends the reading. -/
theorem listFrom_append_parenthesis (p : Progress) (t r : Text) :
    listFrom p (t ++ 0x29 :: r) = listFrom p t := by
  induction t generalizing p with
  | nil => exact listFrom_parenthesis p r
  | cons b t ih =>
    cases hb : p.next? b with
    | none => simp only [List.cons_append, listFrom, hb]
    | some q => simp only [List.cons_append, listFrom, hb, ih q]

theorem IsList.listFrom_eq {t : Text} (h : IsList t) (p : Progress) : listFrom p t = t := by
  induction h generalizing p with
  | nil => rfl
  | @cons w s t hne hw hs _ ih =>
    have hcomma : listFrom .inside (s ++ t) = s ++ t := by
      simp only [List.mem_cons, List.not_mem_nil, or_false] at hs
      obtain rfl | rfl | rfl | rfl := hs
      · exact ih .inside
      · exact congrArg (0x2c :: ·) (ih .comma)
      · exact congrArg (0x20 :: ·) (ih .between)
      · exact congrArg (fun u => 0x2c :: 0x20 :: u) (ih .between)
    rw [listFrom_word p hne hw, hcomma]

/-- What has been read of an open parameter when the reading stands at `p`. -/
inductive Progress.Opened : Progress → Text → Prop
  | between : Opened .between []
  | inside {w : Text} : w ≠ [] → (∀ b ∈ w, isByte b = true) → Opened .inside w
  | comma {w : Text} : w ≠ [] → (∀ b ∈ w, isByte b = true) → Opened .comma (w ++ [0x2c])

theorem isList_of_listFrom_eq {p : Progress} {o t : Text} (ho : p.Opened o) (h : listFrom p t = t) :
    IsList (o ++ t) := by
  induction t generalizing p o with
  | nil =>
    cases ho with
    | between => exact .nil
    | inside hne hw => exact .cons (s := []) hne hw (by decide) .nil
    | comma hne hw =>
      rw [List.append_assoc]
      exact .cons (s := ",") hne hw (by decide) .nil
  | cons b t ih =>
    cases hb : p.next? b with
    | none => simp [listFrom, hb] at h
    | some q =>
      simp only [listFrom, hb, List.cons.injEq, true_and] at h
      by_cases hbyte : isByte b = true
      · -- the byte opens a parameter or belongs to the open one
        obtain rfl : .inside = q := by simpa [Progress.next?, hbyte] using hb
        have hword : ∀ c ∈ [b], isByte c = true := by simpa using hbyte
        cases ho with
        | between => exact ih (.inside (List.cons_ne_nil b []) hword) h
        | inside hne hw =>
          have happ : ∀ c ∈ o ++ [b], isByte c = true := List.forall_mem_append.mpr ⟨hw, hword⟩
          simpa using ih (.inside (by simp) happ) h
        | comma hne hw =>
          rw [List.append_assoc]
          exact .cons (s := ",") hne hw (by decide) (ih (.inside (List.cons_ne_nil b []) hword) h)
      · cases ho with
        | between => simp [Progress.next?, hbyte] at hb
        | inside hne hw =>
          by_cases hcomma : b = 0x2c
          · subst hcomma
            obtain rfl : .comma = q := by simpa [Progress.next?, hbyte] using hb
            simpa using ih (.comma hne hw) h
          · obtain ⟨rfl, rfl⟩ : b = 0x20 ∧ .between = q := by
              simpa [Progress.next?, hbyte, hcomma] using hb
            exact .cons (s := " ") hne hw (by decide) (ih .between h)
        | comma hne hw =>
          obtain ⟨rfl, rfl⟩ : b = 0x20 ∧ .between = q := by simpa [Progress.next?, hbyte] using hb
          rw [List.append_assoc]
          exact .cons (s := ", ") hne hw (by decide) (ih .between h)

theorem isList_iff {t : Text} : IsList t ↔ list t = t :=
  ⟨fun h => h.listFrom_eq .between, fun h => isList_of_listFrom_eq .between h⟩

/-- **What is read in front of a parenthesis is the longest parameter list there.** -/
theorem list_isLongest (t r : Text) :
    list (t ++ 0x29 :: r) <+: t ∧ IsList (list (t ++ 0x29 :: r)) ∧
      ∀ u, u <+: t → IsList u → u <+: list (t ++ 0x29 :: r) := by
  have hcut : list (t ++ 0x29 :: r) = list t := listFrom_append_parenthesis .between t r
  rw [hcut]
  exact ⟨listFrom_isPrefix .between t, isList_iff.mpr (listFrom_listFrom .between t),
    fun u hu hlist => prefix_listFrom hu (isList_iff.mp hlist)⟩

end Parameter

namespace Line

/-! ## Method lines -/

/-- The parameters of a method line are read behind its first opening parenthesis. -/
theorem exists_of_method? {t m ps : Text} (h : method? t = some (m, ps)) :
    ∃ head r, t = head ++ (("function(" : Text) ++ r) ∧ 0x28 ∉ head ∧ ps = Parameter.list r := by
  obtain ⟨c, u, v, r, rfl, hc, hm, hu, hv, rfl⟩ := parts_of_method? h
  have hblanks : ∀ {w : Text}, (∀ b ∈ w, b = 0x20) → (0x28 : UInt8) ∉ w :=
    fun hw hmem => absurd (hw _ hmem) (by decide)
  refine ⟨c ++ (".prototype." : Text) ++ m ++ u ++ ("=" : Text) ++ v, r, ?_, ?_, rfl⟩
  · simp only [List.append_assoc]
  · have hword : (0x28 : UInt8) ∉ (".prototype." : Text) ∧ (0x28 : UInt8) ∉ ("=" : Text) := by decide
    simp only [List.mem_append, not_or]
    exact ⟨⟨⟨⟨⟨hc.notMem rfl, hword.1⟩, hm.notMem rfl⟩, hblanks hu⟩, hword.2⟩, hblanks hv⟩

/-- **The parameters of a method line are all that stands between the parentheses exactly if this is a
parameter list.** In general they are the longest parameter list that stands there. -/
theorem params_eq_iff {line m ps head body rest : Text} (h : classify line = .methodLine m ps)
    (hline : line = head ++ (("function(" : Text) ++ (body ++ 0x29 :: rest))) (hhead : 0x28 ∉ head) :
    ps <+: body ∧ Parameter.IsList ps ∧ (∀ u, u <+: body → Parameter.IsList u → u <+: ps) ∧
      (ps = body ↔ Parameter.IsList body) := by
  obtain ⟨head', r, hline', hhead', rfl⟩ := exists_of_method? (method?_of_classify h)
  -- both texts stand behind the first parenthesis of the line
  have hopen : ∀ {u : Text}, 0x28 ∉ u → ∀ v : Text,
      (u ++ (("function(" : Text) ++ v)).dropWhile (· ≠ 0x28) = 0x28 :: v := by
    intro u hu v
    have hskip : ∀ b ∈ u ++ ("function" : Text), decide (b ≠ 0x28) = true := by
      intro b hb
      refine decide_eq_true fun hb' => ?_
      subst hb'
      exact (List.mem_append.mp hb).elim hu (by decide)
    have hsplit : u ++ (("function(" : Text) ++ v) = u ++ ("function" : Text) ++ 0x28 :: v := by
      rw [List.append_assoc]
      rfl
    rw [hsplit, Text.dropWhile_append_stop hskip (by simp)]
  obtain rfl : r = body ++ 0x29 :: rest := by
    have hboth := hopen hhead' r
    rw [← hline', hline, hopen hhead] at hboth
    exact (List.cons.inj hboth).2.symm
  obtain ⟨hpre, hlist, hlongest⟩ := Parameter.list_isLongest body rest
  refine ⟨hpre, hlist, hlongest, fun heq => heq ▸ hlist, fun hbody => ?_⟩
  exact hpre.eq_of_length_le (hlongest body List.prefix_rfl hbody).length_le

/-- An underscore ends the list: of two parameters the line carries the start of one. -/
theorem params_eq_iff_underscore :
    ("track" : Text) <+: "track_id, callback" ∧ Parameter.IsList "track" ∧
      (∀ u, u <+: ("track_id, callback" : Text) → Parameter.IsList u → u <+: ("track" : Text)) ∧
      (("track" : Text) = "track_id, callback" ↔ Parameter.IsList "track_id, callback") :=
  @params_eq_iff "A.prototype.f = function(track_id, callback) \x7b\x7d;" "f" "track" "A.prototype.f = "
    "track_id, callback" " \x7b\x7d;" (by decide) (by decide) (by decide)

end Line

end StubDecl
