import StubDecl.Proofs.File.Disk

/-!
# Paths and the names on them

A place is a list of names. Its path relative to the directory that it starts in is `Path.relative`,
and `Path.rooted` is the path from the root. Every path means an absolute path of this form, with
ordinary names on it (`Path.exists_rooted`), and going up from such a path drops the last name
(`Path.parent_rooted`, `Disk.upper_rooted`).
-/

namespace StubDecl

/-- What can be the name of something on a disk: neither empty nor a dot or two, and without a
slash. -/
structure Text.IsOrdinary (n : Text) : Prop where
  ne_nil : n ≠ []
  isName : n.IsName
  ne_dot : n ≠ "."
  ne_dots : n ≠ ".."

instance (n : Text) : Decidable n.IsOrdinary :=
  decidable_of_iff (n ≠ [] ∧ 0x2f ∉ n ∧ n ≠ "." ∧ n ≠ "..")
    ⟨fun h => ⟨h.1, h.2.1, h.2.2.1, h.2.2.2⟩, fun h => ⟨h.ne_nil, h.isName, h.ne_dot, h.ne_dots⟩⟩

theorem Text.IsOrdinary.exists_concat {n : Text} (h : n.IsOrdinary) :
    ∃ u b, n = u ++ [b] ∧ b ≠ 0x2f := by
  obtain ⟨u, b, hconcat⟩ := (List.eq_nil_or_concat' n).resolve_left h.ne_nil
  refine ⟨u, b, hconcat, fun hb => h.isName ?_⟩
  rw [hconcat, hb]
  simp

namespace Path

/-! ## Relative paths -/

/-- The path that names make, relative to the directory that the first of them is in. -/
def relative (names : List Text) : Text := Text.joinWith "/" names

/-- The path of a directory with a slash behind it; empty for the directory that paths start in. -/
def base (names : List Text) : Text := names.flatMap fun n => n ++ "/"

variable {names : List Text}


theorem base_cons (n : Text) (names : List Text) : base (n :: names) = n ++ "/" ++ base names := by
  simp [base]

theorem base_concat (names : List Text) (n : Text) : base (names ++ [n]) = base names ++ n ++ "/" := by
  simp [base]

theorem relative_append (names : List Text) {rest : List Text} (h : rest ≠ []) :
    relative (names ++ rest) = base names ++ relative rest := by
  induction names with
  | nil => rfl
  | cons n names ih =>
    have hcons : relative (n :: (names ++ rest)) = n ++ "/" ++ relative (names ++ rest) :=
      Text.joinWith_cons _ _ (by simp [h])
    rw [List.cons_append, hcons, ih, base_cons]
    simp only [List.append_assoc]

theorem relative_concat (names : List Text) (n : Text) : relative (names ++ [n]) = base names ++ n :=
  relative_append names (List.cons_ne_nil n [])

theorem base_eq (h : names ≠ []) : base names = relative names ++ "/" := by
  obtain ⟨init, n, rfl⟩ := (List.eq_nil_or_concat' names).resolve_left h
  rw [base_concat, relative_concat]

/-- Names in front of a path come back from it. -/
theorem splitOn_base_append (h : ∀ n ∈ names, n.IsName) (r : Text) :
    (base names ++ r).splitOn 0x2f = names ++ r.splitOn 0x2f := by
  induction names with
  | nil => rfl
  | cons n names ih =>
    obtain ⟨hn, hnames⟩ := List.forall_mem_cons.mp h
    have hcut : base (n :: names) ++ r = n ++ 0x2f :: (base names ++ r) := by
      rw [base_cons, List.append_assoc, List.append_assoc]
      rfl
    rw [hcut, Text.splitOn_append_sep hn, ih hnames, List.cons_append]

/-- The names come back from the path. -/
theorem splitOn_relative (hne : names ≠ []) (h : ∀ n ∈ names, n.IsName) :
    (relative names).splitOn 0x2f = names :=
  Text.splitOn_joinWith hne h

theorem relative_ne_nil (hne : names ≠ []) (h : ∀ n ∈ names, n.IsOrdinary) : relative names ≠ [] := by
  obtain ⟨init, n, rfl⟩ := (List.eq_nil_or_concat' names).resolve_left hne
  have hn : n ≠ [] := (h n (by simp)).ne_nil
  rw [relative_concat]
  exact List.append_ne_nil_of_right_ne_nil _ hn

theorem relative_inj {names' : List Text} (h : ∀ n ∈ names, n.IsOrdinary)
    (h' : ∀ n ∈ names', n.IsOrdinary) (heq : relative names = relative names') : names = names' := by
  by_cases hne : names = []
  · by_cases hne' : names' = []
    · rw [hne, hne']
    · rw [hne] at heq
      exact absurd heq.symm (relative_ne_nil hne' h')
  · by_cases hne' : names' = []
    · rw [hne'] at heq
      exact absurd heq (relative_ne_nil hne h)
    · rw [← splitOn_relative hne fun n hn => (h n hn).isName, heq,
        splitOn_relative hne' fun n hn => (h' n hn).isName]

/-- A path starts with that of a directory if its names start with those of the directory. -/
theorem base_prefix_relative_iff {p : List Text} (h : ∀ n ∈ names, n.IsName) (hne : p ≠ [])
    (hp : ∀ n ∈ p, n.IsName) : base names <+: relative p ↔ names <+: p ∧ p ≠ names := by
  constructor
  · rintro ⟨r, hr⟩
    have hsplit : p = names ++ Text.splitOn 0x2f r := by
      rw [← splitOn_relative hne hp, ← hr, splitOn_base_append h]
    refine ⟨⟨_, hsplit.symm⟩, fun heq => Text.splitOn_ne_nil 0x2f r ?_⟩
    exact List.append_cancel_left (hsplit.symm.trans (heq.trans (List.append_nil names).symm))
  · rintro ⟨⟨rest, rfl⟩, hlonger⟩
    have hrest : rest ≠ [] := by
      rintro rfl
      exact hlonger (List.append_nil names)
    exact ⟨relative rest, (relative_append names hrest).symm⟩

/-! ## Paths from the root -/

/-- The path from the root that names make. -/
def rooted (names : List Text) : Text := 0x2f :: relative names

theorem rooted_concat (names : List Text) (n : Text) :
    rooted (names ++ [n]) = 0x2f :: base names ++ n := by
  rw [rooted, relative_concat]
  rfl

/-- A stack of ordinary names stays one: a step up never stays on it. -/
theorem isOrdinary_of_foldl_push {cs stack : List Text}
    (hcs : ∀ c ∈ cs, c ≠ [] ∧ c.IsName ∧ c ≠ ".") (hstack : ∀ n ∈ stack, n.IsOrdinary) :
    ∀ n ∈ cs.foldl (push true) stack, n.IsOrdinary := by
  induction cs generalizing stack with
  | nil => exact hstack
  | cons c cs ih =>
    obtain ⟨⟨hnil, hname, hdot⟩, hrest⟩ := List.forall_mem_cons.mp hcs
    refine ih hrest ?_
    simp only [push]
    split
    · cases stack with
      | nil => exact List.forall_mem_nil _
      | cons d ds =>
        obtain ⟨hd, hds⟩ := List.forall_mem_cons.mp hstack
        simp only
        rw [if_neg hd.ne_dots]
        exact hds
    · next hdots => exact List.forall_mem_cons.mpr ⟨⟨hnil, hname, hdot, hdots⟩, hstack⟩

theorem foldl_push_eq (h : ∀ n ∈ names, n.IsOrdinary) (stack : List Text) :
    names.foldl (push true) stack = names.reverse ++ stack := by
  induction names generalizing stack with
  | nil => rfl
  | cons n names ih =>
    obtain ⟨hn, hnames⟩ := List.forall_mem_cons.mp h
    have hpush : push true stack n = n :: stack := by
      simp only [push]
      rw [if_neg hn.ne_dots]
    rw [List.foldl_cons, hpush, ih hnames, List.reverse_cons, List.append_assoc]
    rfl

theorem exists_rooted_clean {p : Text} (h : isAbsolute p = true) :
    ∃ names, (∀ n ∈ names, n.IsOrdinary) ∧ clean p = rooted names := by
  refine ⟨((components p).foldl (push true) []).reverse, fun n hn => ?_, ?_⟩
  · refine isOrdinary_of_foldl_push (fun c hc => ?_) (List.forall_mem_nil _) n (List.mem_reverse.mp hn)
    obtain ⟨hsplit, hc⟩ := List.mem_filter.mp hc
    simp only [Bool.and_eq_true, Bool.not_eq_true', decide_eq_true_eq] at hc
    refine ⟨?_, Text.notMem_of_mem_splitOn hsplit, hc.2⟩
    rintro rfl
    exact absurd hc.1 (by decide)
  · simp only [clean, h, if_true]
    rfl

/-- **Every path means a path from the root** with ordinary names on it. -/
theorem exists_rooted {dir : Text} (h : isAbsolute dir = true) (p : Text) :
    ∃ names, (∀ n ∈ names, n.IsOrdinary) ∧ absolute dir p = rooted names := by
  simp only [absolute, join]
  split
  · next hp => exact exists_rooted_clean hp
  · have hdir : dir.isEmpty = false := by
      cases dir with
      | nil => cases h
      | cons b dir => rfl
    rw [hdir]
    refine exists_rooted_clean ?_
    cases dir with
    | nil => cases h
    | cons b dir => exact h

theorem clean_base (h : ∀ n ∈ names, n.IsOrdinary) : clean (0x2f :: base names) = rooted names := by
  have hsplit : Text.splitOn 0x2f (0x2f :: base names) = [] :: (names ++ [[]]) := by
    have hcut := splitOn_base_append (fun n hn => (h n hn).isName) []
    rw [List.append_nil] at hcut
    rw [Text.splitOn, if_pos rfl, hcut]
    rfl
  have hnames : names.filter (fun c : Text => !c.isEmpty && decide (c ≠ ".")) = names := by
    refine List.filter_eq_self.mpr fun n hn => ?_
    simp [(h n hn).ne_nil, (h n hn).ne_dot]
  have hcomponents : components (0x2f :: base names) = names := by
    rw [components, hsplit, List.filter_cons_of_neg (by simp), List.filter_append, hnames]
    simp
  have hrooted : isAbsolute (0x2f :: base names) = true := rfl
  simp only [clean, hrooted, hcomponents, foldl_push_eq h, List.append_nil, List.reverse_reverse,
    if_true]
  rfl

theorem exists_concat_base (names : List Text) : ∃ u, 0x2f :: base names = u ++ [0x2f] := by
  obtain rfl | ⟨init, n, rfl⟩ := List.eq_nil_or_concat' names
  · exact ⟨[], rfl⟩
  · refine ⟨0x2f :: base init ++ n, ?_⟩
    rw [base_concat]
    simp only [List.cons_append, List.append_assoc]
    rfl

/-- The last name of a path is cut off up to the slash in front of it. -/
theorem dropWhile_rooted_concat {n : Text} (hn : n.IsName) (names : List Text) :
    (rooted (names ++ [n])).reverse.dropWhile (· ≠ 0x2f) = (0x2f :: base names).reverse := by
  obtain ⟨u, hu⟩ := exists_concat_base names
  rw [rooted_concat, List.reverse_append, hu, List.reverse_concat]
  refine Text.dropWhile_append_stop (fun b hb => ?_) (fun b hb => ?_)
  · exact decide_eq_true fun h => hn (h ▸ List.mem_reverse.mp hb)
  · cases hb
    exact decide_eq_false (not_not_intro rfl)

theorem parent_rooted (h : ∀ n ∈ names, n.IsOrdinary) :
    parent (rooted names) = rooted names.dropLast := by
  obtain rfl | ⟨init, n, rfl⟩ := List.eq_nil_or_concat' names
  · rfl
  · obtain ⟨hinit, hn⟩ := List.forall_mem_append.mp h
    have hcut := dropWhile_rooted_concat (hn n (by simp)).isName init
    rw [parent]
    simp only [hcut, List.reverse_reverse, List.dropLast_concat]
    exact clean_base hinit

/-- A path from the root does not end with a slash, unless it is the root. -/
theorem exists_concat_rooted (hne : names ≠ []) (h : ∀ n ∈ names, n.IsOrdinary) :
    ∃ u b, rooted names = u ++ [b] ∧ b ≠ 0x2f := by
  obtain ⟨init, n, rfl⟩ := (List.eq_nil_or_concat' names).resolve_left hne
  obtain ⟨v, b, hv, hb⟩ := (h n (by simp)).exists_concat
  refine ⟨0x2f :: base init ++ v, b, ?_, hb⟩
  rw [rooted_concat, hv, List.append_assoc]

end Path

namespace Disk

variable {names : List Text}

theorem steps_rooted (hne : names ≠ []) (h : ∀ n ∈ names, n.IsOrdinary) :
    steps (Path.rooted names) = names := by
  obtain ⟨u, b, hu, hb⟩ := Path.exists_concat_rooted hne h
  have hlast : (Path.rooted names).getLast? ≠ some 0x2f := by
    rw [hu, List.getLast?_concat]
    exact fun heq => hb (Option.some.inj heq)
  have hsplit : Text.splitOn 0x2f (Path.rooted names) = [] :: names := by
    rw [Path.rooted, Text.splitOn, if_pos rfl, Path.splitOn_relative hne fun n hn => (h n hn).isName]
  have hnames : names.filter (fun c => !c.isEmpty) = names := by
    refine List.filter_eq_self.mpr fun n hn => ?_
    simp [(h n hn).ne_nil]
  simp only [steps]
  rw [if_neg hlast, hsplit, List.filter_cons_of_neg (by simp), hnames]

theorem upper_rooted {n : Text} (h : ∀ m ∈ names, m.IsOrdinary) (hn : n.IsOrdinary) :
    upper (Path.rooted (names ++ [n])) = if names = [] then [] else Path.rooted names := by
  have hall : ∀ m ∈ names ++ [n], m.IsOrdinary :=
    List.forall_mem_append.mpr ⟨h, List.forall_mem_singleton.mpr hn⟩
  obtain ⟨u, b, hu, hb⟩ := Path.exists_concat_rooted (by simp) hall
  have hstart : (Path.rooted (names ++ [n])).reverse.dropWhile (· = 0x2f) =
      (Path.rooted (names ++ [n])).reverse := by
    rw [hu, List.reverse_concat, List.dropWhile_cons_of_neg (by simpa using hb)]
  simp only [upper]
  rw [hstart, Path.dropWhile_rooted_concat hn.isName]
  split
  · next hnil =>
    subst hnil
    rfl
  · next hne =>
    obtain ⟨v, c, hv, hc⟩ := Path.exists_concat_rooted hne h
    have hslash : 0x2f :: Path.base names = Path.rooted names ++ [0x2f] := by
      rw [Path.base_eq hne]
      rfl
    rw [hslash, List.reverse_concat, List.dropWhile_cons_of_pos (by simp), hv, List.reverse_concat,
      List.dropWhile_cons_of_neg (by simpa using hc), List.reverse_cons, List.reverse_reverse]

theorem under_rooted (h : ∀ n ∈ names, n.IsOrdinary) (rel : Text) :
    under (Path.rooted names) rel = 0x2f :: (Path.base names ++ rel) := by
  by_cases hne : names = []
  · subst hne
    rfl
  · have hroot : Path.rooted names ≠ "/" := by
      intro heq
      exact Path.relative_ne_nil hne h (List.cons.inj heq).2
    rw [under, if_neg hroot, Path.base_eq hne]
    rfl

/-- What lies below a directory, by its path, lies below it by its place. -/
theorem exists_of_under {ns : List Text} {rel : Text} (hns : ∀ n ∈ ns, n.IsOrdinary)
    (h : ∀ n ∈ names, n.IsOrdinary) (hrel : rel ≠ [])
    (heq : Path.rooted ns = under (Path.rooted names) rel) : ∃ rest, rest ≠ [] ∧ ns = names ++ rest := by
  rw [under_rooted h] at heq
  have hpath : Path.relative ns = Path.base names ++ rel := (List.cons.inj heq).2
  have hne : ns ≠ [] := by
    rintro rfl
    exact hrel (List.append_eq_nil_iff.mp hpath.symm).2
  refine ⟨rel.splitOn 0x2f, Text.splitOn_ne_nil _ _, ?_⟩
  rw [← Path.splitOn_relative hne fun n hn => (hns n hn).isName, hpath,
    Path.splitOn_base_append fun n hn => (h n hn).isName]

end Disk

end StubDecl
