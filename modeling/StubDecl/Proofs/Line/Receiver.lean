import StubDecl.Proofs.Line.Shape

/-!
# Receivers

A method `C.prototype.m = function(params)` and an extension `C.prototype = new P` start with a word, their
receiver. It has to be there, and no more is asked of it: with another word in its place the line is the same
statement (`Line.classify_receiver`). `Line.readdress` puts a given word in the place of the receiver.
-/

namespace StubDecl.Line

variable {c t w w' m p ps : Text}

/-- A method line is its receiver, the name of the method and what follows them. -/
theorem receiver_of_method? (h : method? t = some (m, ps)) :
    ∃ r u, IsWord r ∧ t = r ++ (".prototype." ++ (m ++ u)) := by
  obtain ⟨r, u, v, ps, rfl, hr, -⟩ := parts_of_method? h
  exact ⟨r, _, hr, rfl⟩

/-- An extension is its receiver, the parent and what follows them. -/
theorem receiver_of_extension? (h : extension? t = some p) :
    ∃ r u, IsWord r ∧ t = r ++ (".prototype = new " ++ (p ++ u)) := by
  obtain ⟨v, hreceiver, h⟩ := Option.bind_eq_some_iff.mp h
  obtain ⟨⟨p', u⟩, hname, h⟩ := Option.bind_eq_some_iff.mp h
  obtain rfl : p' = p := Option.some.inj h
  obtain ⟨r, rfl, hr⟩ := exists_of_afterWord? hreceiver
  obtain ⟨rfl, -⟩ := eq_append_of_word? hname
  exact ⟨r, u, hr, rfl⟩

/-! ## Another word in the place of the receiver -/

/-- A word that a dot follows has no say in whether the line is trash, beyond being one. -/
theorem isTrash_dot (hw : IsWord w) (hw' : IsWord w') (u : Text) :
    isTrash (w' ++ 0x2e :: u) = isTrash (w ++ 0x2e :: u) := by
  have hdot : EndsWord (0x2e :: u) := endsWord_cons (by decide) u
  have hempty : ∀ v : Text, (v ++ 0x2e :: u).isEmpty = false := by simp
  have hcomment : ∀ {v}, IsWord v → Text.startsWith (v ++ 0x2e :: u) "/* " = false :=
    fun hv => startsWith_word hv (by decide) _ _
  have hvalue : propertyValue? (w' ++ 0x2e :: u) = propertyValue? (w ++ 0x2e :: u) := by
    rw [propertyValue?, propertyValue?, afterWord?_append hw hdot, afterWord?_append hw' hdot]
  rw [isTrash, isTrash, hempty, hempty, hcomment hw, hcomment hw', hvalue]

/-- **A method or an extension is the same statement for every receiver.** Only a line that is neither may be
a variable because of the word at its start. -/
theorem classify_receiver (hw : IsWord w) (hw' : IsWord w') {u : Text}
    (h : method? (w ++ 0x2e :: u) = none → extension? (w ++ 0x2e :: u) ≠ none) :
    classify (w' ++ 0x2e :: u) = classify (w ++ 0x2e :: u) := by
  have hdot : EndsWord (0x2e :: u) := endsWord_cons (by decide) u
  have hstart : ∀ {v}, IsWord v → isDocStart (v ++ 0x2e :: u) = false :=
    fun hv => startsWith_word hv (by decide) _ _
  have hend : ∀ {v}, IsWord v → isDocEnd (v ++ 0x2e :: u) = false :=
    fun hv => startsWith_word hv (by decide) _ _
  have htag : ∀ {v}, IsWord v → DocTag.parse (v ++ 0x2e :: u) = DocTag.parse (0x2e :: u) :=
    fun hv => DocTag.parse_append (hv.notMem rfl) _
  have hafter : ∀ sep, afterWord? sep (w' ++ 0x2e :: u) = afterWord? sep (w ++ 0x2e :: u) := by
    intro sep
    rw [afterWord?_append hw hdot, afterWord?_append hw' hdot]
  have hextension : extension? (w' ++ 0x2e :: u) = extension? (w ++ 0x2e :: u) := by
    rw [extension?, extension?, hafter]
  have hmethod : method? (w' ++ 0x2e :: u) = method? (w ++ 0x2e :: u) := by
    rw [method?, method?, hafter]
  simp only [classify, isTrash_dot hw hw', hstart hw, hstart hw', hend hw, hend hw', htag hw, htag hw',
    isCodeStart_append_cons, class?_dot hw, class?_dot hw', hextension, hmethod]
  cases hm : method? (w ++ 0x2e :: u) with
  | some _ => rfl
  | none =>
    obtain ⟨p, hp⟩ := Option.ne_none_iff_exists'.mp (h hm)
    rw [hp]

/-- A method or an extension with the word `c` in the place of its receiver; other lines stay as they are. -/
def readdress (c t : Text) : Text :=
  match classify t with
  | .methodLine _ _ | .extension _ => c ++ t.dropWhile Ascii.isAlnum
  | _ => t

theorem dropWhile_receiver {r : Text} (hr : IsWord r) (u : Text) :
    (r ++ 0x2e :: u).dropWhile Ascii.isAlnum = 0x2e :: u :=
  Text.dropWhile_append_stop hr.isAlnum (endsWord_cons (by decide) u)

theorem readdress_of_methodLine {r u : Text} (hr : IsWord r) (h : classify (r ++ 0x2e :: u) = .methodLine m ps)
    (c : Text) : readdress c (r ++ 0x2e :: u) = c ++ 0x2e :: u := by
  simp only [readdress, h, dropWhile_receiver hr]

theorem readdress_of_extension {r u : Text} (hr : IsWord r) (h : classify (r ++ 0x2e :: u) = .extension p)
    (c : Text) : readdress c (r ++ 0x2e :: u) = c ++ 0x2e :: u := by
  simp only [readdress, h, dropWhile_receiver hr]

/-- A line that is no statement about a prototype stays as it is. -/
theorem readdress_of_shape (hm : ∀ m ps, classify t ≠ .methodLine m ps)
    (he : ∀ p, classify t ≠ .extension p) (c : Text) : readdress c t = t := by
  unfold readdress
  split
  · next m ps h => exact absurd h (hm m ps)
  · next p h => exact absurd h (he p)
  · rfl

/-- What is exchanged is the word in front of the first dot. -/
theorem readdress_cases (c t : Text) : readdress c t = t ∨ ∃ r u, IsWord r ∧ t = r ++ 0x2e :: u ∧
    readdress c t = c ++ 0x2e :: u ∧ (method? t = none → extension? t ≠ none) := by
  cases h : classify t with
  | methodLine m ps =>
    have hmethod := method?_of_classify h
    obtain ⟨r, u, hr, rfl⟩ := receiver_of_method? hmethod
    refine .inr ⟨r, "prototype." ++ (m ++ u), hr, rfl, readdress_of_methodLine hr h c, fun hnone => ?_⟩
    rw [hmethod] at hnone
    cases hnone
  | extension p =>
    have hextension := extension?_of_classify h
    obtain ⟨r, u, hr, rfl⟩ := receiver_of_extension? hextension
    refine .inr ⟨r, "prototype = new " ++ (p ++ u), hr, rfl, readdress_of_extension hr h c, fun _ => ?_⟩
    rw [hextension]
    nofun
  | _ => exact .inl (readdress_of_shape (by simp [h]) (by simp [h]) c)

theorem classify_readdress (hc : IsWord c) (t : Text) : classify (readdress c t) = classify t := by
  obtain h | ⟨r, u, hr, rfl, h, hstatement⟩ := readdress_cases c t
  · rw [h]
  · rw [h, classify_receiver hr hc hstatement]

theorem isLine_readdress (hc : IsWord c) (ht : IsLine t) : IsLine (readdress c t) := by
  obtain h | ⟨r, u, hr, rfl, h, -⟩ := readdress_cases c t
  · rwa [h]
  · have hdot : Text.IsVisible 0x2e := by decide
    obtain ⟨hnewline, htrim⟩ := ht
    have hu : Text.trimEnd u = u := by
      rw [Text.trimEnd_append_cons hdot] at htrim
      simpa using htrim
    rw [h]
    refine ⟨fun hmem => ?_, by rw [Text.trimEnd_append_cons hdot, hu]⟩
    exact (List.mem_append.mp hmem).elim (hc.notMem rfl) fun hmem => hnewline (List.mem_append_right r hmem)

end StubDecl.Line
