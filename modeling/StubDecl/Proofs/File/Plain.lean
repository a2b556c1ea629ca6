import StubDecl.Proofs.File.Node
import StubDecl.Proofs.File.Path

/-!
# Disks of files and directories

A plain disk holds files and directories with ordinary names and nothing else, so that a path means the
place of its names (`Disk.Plain.place_cases`, `Disk.Plain.stat_eq_ok_iff`, `Disk.Plain.lstat_eq_ok_iff`).
-/

namespace StubDecl

namespace FileTree

/-! ## Plain trees -/

/-- All names in the tree are ordinary. -/
def Ordinary {α : Type} (t : FileTree α) : Prop := ∀ p, t.node? p ≠ none → ∀ n ∈ p, n.IsOrdinary

/-- The names in the tree are in order and ordinary, and all leaves are files. -/
structure Plain (t : FileTree Leaf) : Prop where
  proper : t.Proper
  ordinary : t.Ordinary
  files : ∀ p l, t.node? p = some (.leaf l) → ∃ c, l = .file c

/-- A file, or a directory that is plain. -/
def Entry.Plain : Entry Leaf → Prop
  | .leaf l => ∃ c, l = .file c
  | .dir es => es.Plain

theorem node?_nil_eq_none {α : Type} (n : Text) (p : List Text) :
    (FileTree.nil : FileTree α).node? (n :: p) = none := by
  rw [node?_cons]
  rfl

theorem plain_nil : Plain .nil where
  proper := trivial
  ordinary := by
    intro p hp
    cases p with
    | nil => exact List.forall_mem_nil _
    | cons n p => exact absurd (node?_nil_eq_none n p) hp
  files := by
    intro p l hp
    cases p with
    | nil => cases hp
    | cons n p =>
      rw [node?_nil_eq_none] at hp
      cases hp

namespace Entry.Plain

variable {e : Entry Leaf}

theorem proper (h : e.Plain) : e.Proper := by
  cases e with
  | leaf l => trivial
  | dir es => exact FileTree.Plain.proper h

theorem ordinary (h : e.Plain) {p : List Text} (hp : e.node? p ≠ none) : ∀ n ∈ p, n.IsOrdinary := by
  cases e with
  | leaf l =>
    cases p with
    | nil => exact List.forall_mem_nil _
    | cons n p => exact absurd rfl hp
  | dir es => exact FileTree.Plain.ordinary h p hp

theorem files (h : e.Plain) {p : List Text} {l : Leaf} (hp : e.node? p = some (.leaf l)) :
    ∃ c, l = .file c := by
  cases e with
  | leaf k =>
    cases p with
    | nil =>
      cases hp
      exact h
    | cons n p => cases hp
  | dir es => exact FileTree.Plain.files h p l hp

end Entry.Plain

namespace Plain

variable {t : FileTree Leaf} {e : Entry Leaf} {place : List Text}

theorem getAt? (h : t.Plain) (hget : t.getAt? place = some e) : e.Plain := by
  cases e with
  | leaf l => exact h.files place l (node?_eq_leaf_iff.mpr hget)
  | dir es =>
    have hbelow : ∀ p, es.node? p = t.node? (place ++ p) := by
      intro p
      rw [node?_append, hget]
      rfl
    refine ⟨h.proper.getAt? hget, fun p hp n hn => ?_, fun p l hp => ?_⟩
    · rw [hbelow] at hp
      exact h.ordinary _ hp n (List.mem_append_right _ hn)
    · rw [hbelow] at hp
      exact h.files _ l hp

theorem setAt (h : t.Plain) (hne : place ≠ []) (hdir : t.node? place.dropLast = some .dir)
    (hplace : ∀ n ∈ place, n.IsOrdinary) (he : e.Plain) : (t.setAt place e).Plain := by
  refine ⟨h.proper.setAt (fun n hn => (hplace n hn).isName) he.proper, fun q hq => ?_,
    fun q l hq => ?_⟩
  · by_cases hpre : place <+: q
    · obtain ⟨r, rfl⟩ := hpre
      rw [node?_setAt_append hne hdir] at hq
      exact List.forall_mem_append.mpr ⟨hplace, he.ordinary hq⟩
    · rw [node?_setAt_elsewhere hpre] at hq
      exact h.ordinary q hq
  · by_cases hpre : place <+: q
    · obtain ⟨r, rfl⟩ := hpre
      rw [node?_setAt_append hne hdir] at hq
      exact he.files hq
    · rw [node?_setAt_elsewhere hpre] at hq
      exact h.files q l hq

theorem eraseAt (h : t.Plain) (place : List Text) : (t.eraseAt place).Plain := by
  by_cases hne : place = []
  · rw [hne]
    exact h
  have hkept : ∀ q, (t.eraseAt place).node? q ≠ none → (t.eraseAt place).node? q = t.node? q := by
    intro q hq
    refine node?_eraseAt_elsewhere (fun hpre => hq ?_) h.proper
    obtain ⟨r, rfl⟩ := hpre
    exact node?_eraseAt_append hne h.proper r
  refine ⟨h.proper.eraseAt place, fun q hq => ?_, fun q l hq => ?_⟩
  · exact h.ordinary q (hkept q hq ▸ hq)
  · exact h.files q l (hkept q (by simp [hq]) ▸ hq)

end Plain

end FileTree

namespace Disk

open FileTree (Entry)

/-- A disk of files and directories with ordinary names, with an absolute working directory. -/
structure Plain (d : Disk) : Prop where
  root : d.root.Plain
  directory : Path.isAbsolute d.directory = true

theorem plain_empty : Plain {} := ⟨FileTree.plain_nil, by decide⟩

/-! ## Following names -/

/-- Where names lead from a directory: to their place, unless something above it is missing or no
directory. -/
theorem follow_cases {t : FileTree Leaf} (h : t.Plain) (last : Bool) (links : Nat) {fuel : Nat}
    {here names : List Text} (hnames : ∀ n ∈ names, n.IsOrdinary) (hfuel : names.length < fuel)
    (hhere : t.node? here.reverse = some .dir) :
    (t.node? (here.reverse ++ names.dropLast) = some .dir ∧
        follow t last fuel links here names = .ok (names.reverse ++ here)) ∨
      (t.node? (here.reverse ++ names.dropLast) ≠ some .dir ∧
        ∃ f, follow t last fuel links here names = .error f) := by
  induction names generalizing fuel here with
  | nil =>
    obtain ⟨fuel, rfl⟩ := Nat.exists_eq_succ_of_ne_zero (Nat.ne_of_gt hfuel)
    refine .inl ⟨by simpa using hhere, ?_⟩
    rw [follow]
    rfl
  | cons n names ih =>
    obtain ⟨hn, hrest⟩ := List.forall_mem_cons.mp hnames
    obtain ⟨fuel, rfl⟩ := Nat.exists_eq_succ_of_ne_zero
      (Nat.ne_of_gt (Nat.lt_of_le_of_lt (Nat.zero_le _) hfuel))
    rw [follow, if_neg hn.ne_dot, if_neg hn.ne_dots]
    -- Below something that is no directory there is nothing.
    have hblocked : t.node? (here.reverse ++ [n]) ≠ some .dir → ∀ m ms,
        t.node? (here.reverse ++ (n :: m :: ms).dropLast) ≠ some .dir := by
      intro hno m ms hdir
      rw [List.dropLast_cons_of_ne_nil (List.cons_ne_nil m ms), ← List.singleton_append,
        ← List.append_assoc] at hdir
      by_cases hlast : (m :: ms).dropLast = []
      · rw [hlast, List.append_nil] at hdir
        exact hno hdir
      · exact hno (FileTree.node?_of_append (by rw [hdir]; nofun) hlast)
    cases hget : t.getAt? (here.reverse ++ [n]) with
    | none =>
      cases names with
      | nil => exact .inl ⟨by simpa using hhere, rfl⟩
      | cons m ms =>
        refine .inr ⟨hblocked ?_ m ms, _, rfl⟩
        rw [FileTree.node?_eq_none_iff.mpr hget]
        nofun
    | some e =>
      cases e with
      | leaf l =>
        have hleaf := FileTree.node?_eq_leaf_iff.mpr hget
        obtain ⟨c, rfl⟩ := h.files _ l hleaf
        cases names with
        | nil => exact .inl ⟨by simpa using hhere, rfl⟩
        | cons m ms =>
          refine .inr ⟨hblocked ?_ m ms, _, rfl⟩
          rw [hleaf]
          nofun
      | dir es =>
        have hdir : t.node? (n :: here).reverse = some .dir := by
          rw [List.reverse_cons]
          exact FileTree.node?_eq_dir_iff.mpr ⟨es, hget⟩
        have hnext := ih hrest (Nat.lt_of_succ_lt_succ hfuel) hdir
        cases names with
        | nil =>
          obtain ⟨-, hok⟩ | ⟨hno, -⟩ := hnext
          · exact .inl ⟨by simpa using hhere, hok⟩
          · exact absurd (by simpa using hdir) hno
        | cons m ms =>
          rw [List.dropLast_cons_of_ne_nil (List.cons_ne_nil m ms)]
          simpa using hnext

namespace Plain

variable {d : Disk} {names : List Text}

/-- **A path means the place of its names**, if the directories above it are there. -/
theorem place_cases (hd : d.Plain) (h : ∀ n ∈ names, n.IsOrdinary) (last : Bool) :
    (d.root.node? names.dropLast = some .dir ∧ d.place last (Path.rooted names) = .ok names) ∨
      (d.root.node? names.dropLast ≠ some .dir ∧ ∃ f, d.place last (Path.rooted names) = .error f) := by
  have habsolute : Path.isAbsolute (Path.rooted names) = true := rfl
  have hempty : (Path.rooted names).isEmpty = false := rfl
  simp only [place, habsolute, hempty, if_true, Bool.false_eq_true, if_false]
  by_cases hne : names = []
  · subst hne
    have hsteps : steps (Path.rooted []) = [Text.ofString "."] := by decide
    have hfuel : [Text.ofString "."].length + 2 + (maxLinks + 1) * linkWeight d.root =
        (maxLinks + 1) * linkWeight d.root + 1 + 1 + 1 := by
      simp only [List.length_singleton]
      omega
    refine .inl ⟨rfl, ?_⟩
    rw [hsteps, hfuel, follow, if_pos rfl, follow]
    rfl
  · rw [steps_rooted hne h]
    obtain ⟨hdir, hok⟩ | ⟨hno, f, hf⟩ := follow_cases hd.root last maxLinks h
      (show names.length < names.length + 2 + (maxLinks + 1) * linkWeight d.root by omega)
      (show d.root.node? [].reverse = some .dir from rfl)
    · refine .inl ⟨by simpa using hdir, ?_⟩
      rw [hok]
      simp [Except.map]
    · refine .inr ⟨by simpa using hno, f, ?_⟩
      rw [hf]
      rfl

theorem lookup_eq_ok_iff (hd : d.Plain) (h : ∀ n ∈ names, n.IsOrdinary) (last : Bool) {e : Entry Leaf} :
    ((d.place last (Path.rooted names)).bind fun at_ =>
        match d.root.getAt? at_ with
        | some e => .ok e
        | none => .error .missing) = .ok e ↔ d.root.getAt? names = some e := by
  obtain ⟨-, hok⟩ | ⟨hno, f, hf⟩ := hd.place_cases h last
  · rw [hok, Except.bind]
    cases d.root.getAt? names with
    | none => exact ⟨nofun, nofun⟩
    | some e' => simp
  · rw [hf, Except.bind]
    refine ⟨nofun, fun hget => absurd (FileTree.node?_dropLast ?_) hno⟩
    rw [Ne, FileTree.node?_eq_none_iff, hget]
    nofun

theorem stat_eq_ok_iff (hd : d.Plain) (h : ∀ n ∈ names, n.IsOrdinary) {e : Entry Leaf} :
    d.stat (Path.rooted names) = .ok e ↔ d.root.getAt? names = some e :=
  hd.lookup_eq_ok_iff h true

theorem lstat_eq_ok_iff (hd : d.Plain) (h : ∀ n ∈ names, n.IsOrdinary) {e : Entry Leaf} :
    d.lstat (Path.rooted names) = .ok e ↔ d.root.getAt? names = some e :=
  hd.lookup_eq_ok_iff h false

theorem ownPlace_eq (hd : d.Plain) (h : ∀ n ∈ names, n.IsOrdinary)
    (hdir : d.root.node? names.dropLast = some .dir) : d.ownPlace (Path.rooted names) = names := by
  obtain ⟨-, hok⟩ | ⟨hno, -⟩ := hd.place_cases h false
  · rw [ownPlace, hok]
    rfl
  · exact absurd hdir hno

theorem contentOf_eq (hd : d.Plain) (h : ∀ n ∈ names, n.IsOrdinary) {c : Text}
    (hget : d.root.getAt? names = some (.leaf (.file c))) :
    d.contentOf (Path.rooted names) = .ok c := by
  rw [contentOf, (hd.stat_eq_ok_iff h).mpr hget]

/-- The names on the absolute path that a path means. -/
theorem exists_names (hd : d.Plain) (p : Text) :
    ∃ names, (∀ n ∈ names, n.IsOrdinary) ∧ d.absolute p = Path.rooted names :=
  Path.exists_rooted hd.directory p

end Plain

end Disk

end StubDecl
