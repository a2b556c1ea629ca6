import StubDecl.Proofs.File.Readings

/-!
# Paths with dots on a plain disk

A path that is given to the program need not be clean: it may be relative and have empty components and
steps up on it. On a plain disk it still means what its clean form means, provided that it means anything
(`Disk.Plain.place_eq`).
-/

namespace StubDecl

namespace Path

/-- The names on a way that are no dots. -/
def named (ns : List Text) : List Text := ns.filter fun c => decide (c ≠ ".")

theorem named_append (ns ms : List Text) : named (ns ++ ms) = named ns ++ named ms :=
  List.filter_append ..

theorem components_append_slash (p q : Text) : components (p ++ 0x2f :: q) = components p ++ components q := by
  rw [components, Text.splitOn_append_cons, List.filter_append]
  rfl

end Path

namespace Disk

theorem named_steps (p : Text) : Path.named (steps p) = Path.components p := by
  have hcut : Path.named ((p.splitOn 0x2f).filter fun c => !c.isEmpty) = Path.components p := by
    rw [Path.named, List.filter_filter, Path.components]
    exact List.filter_congr fun c _ => Bool.and_comm _ _
  simp only [steps]
  split
  · rw [Path.named_append, hcut]
    exact List.append_nil _
  · exact hcut

theorem ne_nil_of_mem_steps {p n : Text} (h : n ∈ steps p) : n ≠ [] := by
  rintro rfl
  simp only [steps] at h
  split at h
  · obtain h | h := List.mem_append.mp h
    · exact absurd (List.mem_filter.mp h).2 (by decide)
    · exact absurd (List.mem_singleton.mp h) (by decide)
  · exact absurd (List.mem_filter.mp h).2 (by decide)

/-- An ordinary name on the way is put on the stack. -/
theorem foldl_push_cons {n : Text} (hdot : n ≠ ".") (hdots : n ≠ "..") (stack ns : List Text) :
    (Path.named (n :: ns)).foldl (Path.push true) stack =
      (Path.named ns).foldl (Path.push true) (n :: stack) := by
  have hpush : Path.push true stack n = n :: stack := if_neg hdots
  rw [Path.named, List.filter_cons_of_pos (by simpa using hdot), List.foldl_cons, hpush]
  rfl

/-- Names that lead anywhere lead to where they lead as a stack, a step up taking a name away. -/
theorem follow_eq_foldl {t : FileTree Leaf} (h : t.Plain) {last : Bool} {fuel links : Nat}
    {here ns at_ : List Text} (hhere : t.node? here.reverse = some .dir)
    (hns : ∀ n ∈ ns, n ≠ [] ∧ n.IsName) (hok : follow t last fuel links here ns = .ok at_) :
    at_ = (Path.named ns).foldl (Path.push true) here ∧
      (∀ n ∈ at_, n.IsOrdinary) ∧ t.node? at_.reverse.dropLast = some .dir := by
  have hordinary : ∀ {ms : List Text}, t.node? ms.reverse = some .dir → ∀ n ∈ ms, n.IsOrdinary :=
    fun hdir n hn => h.ordinary _ (by rw [hdir]; nofun) n (List.mem_reverse.mpr hn)
  -- a last name that is not followed stays on top of the stack
  have hlast : ∀ {n : Text} {ms ns : List Text}, n ≠ "." → n ≠ ".." → ns = [] →
      t.node? ms.reverse = some .dir → (∀ m ∈ n :: ns, m ≠ [] ∧ m.IsName) →
      n :: ms = (Path.named (n :: ns)).foldl (Path.push true) ms ∧
        (∀ m ∈ n :: ms, m.IsOrdinary) ∧ t.node? (n :: ms).reverse.dropLast = some .dir := by
    rintro n ms ns hdot hdots rfl hms hn
    obtain ⟨hne, hname⟩ := hn n List.mem_cons_self
    refine ⟨(foldl_push_cons hdot hdots ms []).symm,
      List.forall_mem_cons.mpr ⟨⟨hne, hname, hdot, hdots⟩, hordinary hms⟩, ?_⟩
    rwa [List.reverse_cons, List.dropLast_concat]
  fun_induction follow t last fuel links here ns with
  | case1 | case6 | case9 | case12 => cases hok
  | case2 =>
    cases hok
    exact ⟨rfl, hordinary hhere, FileTree.node?_dropLast (by rw [hhere]; nofun)⟩
  | case3 fuel links here ns ih => exact ih hhere (List.forall_mem_cons.mp hns).2 hok
  | case4 fuel links here ns _ ih =>
    have hup : t.node? (here.drop 1).reverse = some .dir := by
      cases here with
      | nil => rfl
      | cons m here =>
        rw [List.reverse_cons] at hhere
        have habove := FileTree.node?_dropLast (t := t) (by rw [hhere]; nofun)
        rwa [List.dropLast_concat] at habove
    have hpush : Path.push true here ".." = here.drop 1 := by
      cases here with
      | nil => rfl
      | cons m here =>
        have hm := (hordinary hhere m List.mem_cons_self).ne_dots
        simp [Path.push, hm]
    have hnamed : Path.named (("..":Text) :: ns) = ("..":Text) :: Path.named ns :=
      List.filter_cons_of_pos (by decide)
    rw [hnamed, List.foldl_cons, hpush]
    exact ih hup (List.forall_mem_cons.mp hns).2 hok
  | case5 fuel links here n ns hdot hdots _ hempty | case11 fuel links here n ns hdot hdots _ _ _ hempty =>
    cases hok
    exact hlast hdot hdots (List.isEmpty_iff.mp hempty) hhere hns
  | case7 fuel links here n ns hdot hdots es hget ih =>
    rw [foldl_push_cons hdot hdots]
    refine ih ?_ (List.forall_mem_cons.mp hns).2 hok
    rw [List.reverse_cons]
    exact FileTree.node?_eq_dir_iff.mpr ⟨es, hget⟩
  | case8 _ _ here n _ _ _ target hget | case10 _ here n _ _ _ target hget =>
    -- there are no links
    obtain ⟨c, hc⟩ := h.files _ _ (FileTree.node?_eq_leaf_iff.mpr hget)
    cases hc

/-- The names that a path is followed along. -/
def way (d : Disk) (p : Text) : List Text :=
  if Path.isAbsolute p then steps p else steps d.directory ++ steps p

theorem isName_of_mem_way {d : Disk} {p n : Text} (h : n ∈ d.way p) : n ≠ [] ∧ n.IsName := by
  have hsteps : ∀ {q}, n ∈ steps q → n ≠ [] ∧ n.IsName :=
    fun hn => ⟨ne_nil_of_mem_steps hn, isName_of_mem_steps hn⟩
  rw [way] at h
  split at h
  · exact hsteps h
  · exact (List.mem_append.mp h).elim hsteps hsteps

/-- The clean form of a path is made of the names on its way. -/
theorem absolute_eq {d : Disk} (hdir : Path.isAbsolute d.directory = true) (p : Text) :
    d.absolute p = Path.rooted ((Path.named (d.way p)).foldl (Path.push true) []).reverse := by
  have hclean : ∀ {q : Text}, Path.isAbsolute q = true →
      Path.clean q = Path.rooted ((Path.components q).foldl (Path.push true) []).reverse := by
    intro q hq
    simp only [Path.clean, hq, if_true]
    rfl
  rw [absolute, Path.absolute, way]
  split
  · next hp => rw [hclean hp, named_steps]
  · obtain ⟨dir, hcons⟩ : ∃ dir, d.directory = 0x2f :: dir := by
      cases hd : d.directory with
      | nil => simp [Path.isAbsolute, hd] at hdir
      | cons b dir =>
        obtain rfl : b = 0x2f := by simpa [Path.isAbsolute, hd] using hdir
        exact ⟨dir, rfl⟩
    have hjoin : Path.join d.directory p = Path.clean (d.directory ++ 0x2f :: p) := by
      rw [Path.join, hcons]
      simp only [List.isEmpty_cons, Bool.false_eq_true, if_false, List.append_assoc]
      rfl
    rw [hjoin, hclean (by rw [hcons]; rfl), Path.components_append_slash, Path.named_append, named_steps,
      named_steps]

namespace Plain

variable {d : Disk}

/-- **A path means what its clean form means**, if it means anything. -/
theorem place_eq (hd : d.Plain) {last : Bool} {p : Text} {at_ : List Text} (h : d.place last p = .ok at_) :
    d.absolute p = Path.rooted at_ ∧ (∀ n ∈ at_, n.IsOrdinary) ∧ d.root.node? at_.dropLast = some .dir := by
  simp only [place] at h
  split at h
  · cases h
  · cases hfollow : follow d.root last _ maxLinks [] (d.way p) with
    | error f =>
      rw [way] at hfollow
      rw [hfollow] at h
      cases h
    | ok rev =>
      obtain ⟨hrev, hordinary, habove⟩ :=
        follow_eq_foldl hd.root (show d.root.node? [].reverse = some .dir from rfl)
          (fun n hn => isName_of_mem_way hn) hfollow
      rw [way] at hfollow
      rw [hfollow] at h
      obtain rfl : rev.reverse = at_ := Except.ok.inj h
      rw [absolute_eq hd.directory, ← hrev]
      exact ⟨rfl, fun n hn => hordinary n (List.mem_reverse.mp hn), habove⟩

/-- A directory that a path leads to is the directory that its clean form leads to. -/
theorem leads_of_stat (hd : d.Plain) {dir : Text} {t : FileTree Leaf} (h : d.stat dir = .ok (.dir t)) :
    ∃ top, d.Leads dir top := by
  simp only [stat] at h
  obtain ⟨at_, hplace, hget⟩ : ∃ at_, d.place true dir = .ok at_ ∧ d.root.getAt? at_ = some (.dir t) := by
    obtain ⟨at_, hplace, hget⟩ := Outcome.bind_eq_ok h
    split at hget
    · next hsome =>
      cases hget
      exact ⟨at_, hplace, hsome⟩
    · cases hget
  obtain ⟨hpath, hordinary, -⟩ := hd.place_eq hplace
  exact ⟨at_, hd, hordinary, hpath, FileTree.node?_eq_dir_iff.mpr ⟨t, hget⟩⟩

end Plain

end Disk

end StubDecl
