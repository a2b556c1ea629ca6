import Mathlib.Data.List.Lex
import StubDecl.Proofs.File.Node
import StubDecl.Proofs.File.Path

/-!
# Which files are converted, and in which order

A walk lists a file if and only if its path is selected and no directory on the way to it is excluded
(`Scope.Admits`), and it lists the files in the order that compares paths name by name. The selection
of a tree is described first (`Scope.mem_select_iff`, `Scope.pairwise_select`), then the walk of a
directory of a disk (`Disk.sources_admitted`).
-/

namespace StubDecl

namespace Scope

/-! ## Admitted places -/

/-- No directory of `names` is excluded, the way starting at `here`. -/
def EntersFrom (s : Scope) (here names : List Text) : Prop :=
  ∀ q, q ≠ [] → q <+: names → s.excluded (Path.relative (here ++ q) ++ "/") = false

/-- No directory on the way is excluded, the last one included. -/
def Enters (s : Scope) (names : List Text) : Prop := s.EntersFrom [] names

/-- The path is selected, and no directory strictly above the file is excluded. -/
def Admits (s : Scope) (names : List Text) : Prop :=
  s.selects (Path.relative names) = true ∧ s.Enters names.dropLast

variable {α : Type} {s : Scope} {t : FileTree α} {here names : List Text} {n : Text}

theorem entersFrom_nil (s : Scope) (here : List Text) : s.EntersFrom here [] := by
  intro q hq hpre
  exact absurd (List.prefix_nil.mp hpre) hq

theorem entersFrom_cons : s.EntersFrom here (n :: names) ↔
    s.enters (Path.relative (here ++ [n])) = true ∧ s.EntersFrom (here ++ [n]) names := by
  rw [enters, Bool.not_eq_true']
  constructor
  · intro h
    refine ⟨h [n] (List.cons_ne_nil n []) (List.prefix_append [n] names), fun q hq hpre => ?_⟩
    have hcons := h (n :: q) (List.cons_ne_nil n q) (List.cons_prefix_cons.mpr ⟨rfl, hpre⟩)
    rwa [List.append_assoc]
  · rintro ⟨hn, hrest⟩ q hq hpre
    obtain rfl | ⟨r, rfl, hr⟩ := List.prefix_cons_iff.mp hpre
    · exact absurd rfl hq
    · cases r with
      | nil => exact hn
      | cons m r =>
        have hbehind := hrest (m :: r) (List.cons_ne_nil m r) hr
        rwa [List.append_assoc] at hbehind

theorem entersFrom_append {rest : List Text} : s.EntersFrom here (names ++ rest) ↔
    s.EntersFrom here names ∧ s.EntersFrom (here ++ names) rest := by
  induction names generalizing here with
  | nil =>
    rw [List.append_nil]
    exact (and_iff_right (s.entersFrom_nil here)).symm
  | cons n names ih =>
    rw [List.cons_append, entersFrom_cons, entersFrom_cons, ih, and_assoc, List.append_assoc]
    rfl

/-- The way to a directory goes through those above it. -/
theorem Enters.of_isPrefix {init : List Text} (h : s.Enters names) (hpre : init <+: names) :
    s.Enters init := by
  obtain ⟨rest, rfl⟩ := hpre
  exact (entersFrom_append.mp h).1

/-! ## The selection of a tree -/

/-- **A file is selected if it is admitted**, and nothing else is selected. -/
theorem mem_select_iff (h : t.Proper) (here : List Text) {rel : Text} {a : α} :
    (rel, a) ∈ s.select (Path.base here) t ↔
      ∃ p, t.node? p = some (.leaf a) ∧ rel = Path.relative (here ++ p) ∧ s.selects rel = true ∧
        s.EntersFrom here p.dropLast := by
  induction t using FileTree.cons_induction generalizing here with
  | nil =>
    constructor
    · nofun
    · rintro ⟨p, hp, -⟩
      cases p with
      | nil => cases hp
      | cons m p =>
        rw [FileTree.node?_cons] at hp
        cases hp
  | cons n e t ihe iht =>
    obtain ⟨he, -, -, ht⟩ := FileTree.proper_cons.mp h
    rw [select_cons, List.mem_append, iht ht here, ← Path.relative_concat]
    simp only [FileTree.node?_cons_eq_leaf h, or_and_right, exists_or]
    refine or_congr ?_ Iff.rfl
    cases e with
    | leaf b =>
      constructor
      · intro hmem
        simp only at hmem
        split at hmem
        · next hsel =>
          cases List.mem_singleton.mp hmem
          exact ⟨[n], ⟨[], rfl, rfl⟩, rfl, hsel, s.entersFrom_nil here⟩
        · cases hmem
      · rintro ⟨p, ⟨q, rfl, hleaf⟩, rfl, hsel, -⟩
        cases q with
        | nil =>
          cases hleaf
          simp only
          rw [if_pos hsel]
          exact List.mem_singleton_self _
        | cons m q => cases hleaf
    | dir es =>
      have hbase : Path.relative (here ++ [n]) ++ "/" = Path.base (here ++ [n]) := by
        rw [Path.relative_concat, Path.base_concat]
      have hin := ihe es rfl he (here ++ [n])
      simp only
      rw [hbase]
      constructor
      · intro hmem
        split at hmem
        · next henter =>
          obtain ⟨p, hleaf, rfl, hsel, hrest⟩ := hin.mp hmem
          have hp : p ≠ [] := by
            rintro rfl
            cases hleaf
          refine ⟨n :: p, ⟨p, rfl, hleaf⟩, by rw [List.append_assoc]; rfl, hsel, ?_⟩
          rw [List.dropLast_cons_of_ne_nil hp]
          exact entersFrom_cons.mpr ⟨henter, hrest⟩
        · cases hmem
      · rintro ⟨p, ⟨q, rfl, hleaf⟩, rfl, hsel, hway⟩
        have hq : q ≠ [] := by
          rintro rfl
          cases hleaf
        rw [List.dropLast_cons_of_ne_nil hq] at hway
        obtain ⟨henter, hrest⟩ := entersFrom_cons.mp hway
        rw [if_pos henter]
        exact hin.mpr ⟨q, hleaf, by rw [List.append_assoc]; rfl, hsel, hrest⟩

/-- The selected files of a whole tree. -/
theorem mem_select_nil_iff (h : t.Proper) {rel : Text} {a : α} :
    (rel, a) ∈ s.select [] t ↔
      ∃ p, t.node? p = some (.leaf a) ∧ rel = Path.relative p ∧ s.Admits p := by
  have hbase : ([] : Text) = Path.base [] := rfl
  rw [hbase, mem_select_iff h]
  constructor
  · rintro ⟨p, hleaf, rfl, hsel, hway⟩
    exact ⟨p, hleaf, rfl, hsel, hway⟩
  · rintro ⟨p, hleaf, rfl, hsel, hway⟩
    exact ⟨p, hleaf, rfl, hsel, hway⟩

/-- The names of a selected file, and the first of them. -/
theorem splitOn_of_mem_select (h : t.Proper) (hhere : ∀ n ∈ here, n.IsName) {x : Text × α}
    (hx : x ∈ s.select (Path.base here) t) :
    ∃ n ∈ t.names, ∃ p, x.1.splitOn 0x2f = here ++ n :: p := by
  obtain ⟨p, hleaf, hrel, -⟩ := (mem_select_iff h here).mp hx
  have hnames : ∀ n ∈ p, n.IsName := h.isName_of_node? (by simp [hleaf])
  cases p with
  | nil => cases hleaf
  | cons n p =>
    rw [FileTree.node?_cons] at hleaf
    obtain ⟨e, hget, -⟩ := Option.bind_eq_some_iff.mp hleaf
    refine ⟨n, FileTree.mem_names_of_get? hget, p, ?_⟩
    rw [hrel]
    exact Path.splitOn_relative (by simp) (List.forall_mem_append.mpr ⟨hhere, hnames⟩)

/-- **Selected files come in the order of their names**, compared one after the other. -/
theorem pairwise_select (h : t.Proper) (hhere : ∀ n ∈ here, n.IsName) :
    (s.select (Path.base here) t).Pairwise fun x y =>
      List.Lex Text.Precedes (x.1.splitOn 0x2f) (y.1.splitOn 0x2f) := by
  induction t using FileTree.cons_induction generalizing here with
  | nil => exact List.Pairwise.nil
  | cons n e t ihe iht =>
    obtain ⟨he, hn, hfirst, ht⟩ := FileTree.proper_cons.mp h
    have halone : (FileTree.cons n e .nil).Proper := FileTree.proper_cons.mpr ⟨he, hn, nofun, trivial⟩
    rw [select_cons, List.pairwise_append]
    refine ⟨?_, iht ht hhere, fun x hx y hy => ?_⟩
    · cases e with
      | leaf a =>
        simp only
        split
        · exact List.pairwise_singleton _ _
        · exact List.Pairwise.nil
      | dir es =>
        simp only
        split
        · rw [← Path.base_concat]
          refine ihe es rfl he (List.forall_mem_append.mpr ⟨hhere, ?_⟩)
          exact List.forall_mem_singleton.mpr hn
        · exact List.Pairwise.nil
    · have hx' : x ∈ s.select (Path.base here) (.cons n e .nil) := by
        rw [select_cons]
        exact List.mem_append_left _ hx
      obtain ⟨n', hn', p, hp⟩ := splitOn_of_mem_select halone hhere hx'
      obtain ⟨m, hm, q, hq⟩ := splitOn_of_mem_select ht hhere hy
      obtain rfl : n' = n := by simpa [FileTree.names] using hn'
      rw [hp, hq]
      exact List.Lex.append_left _ (.rel (hfirst m hm)) here

end Scope

/-! ## The walk of a directory -/

namespace Disk

variable {d : Disk} {dir : Text} {t : FileTree Leaf}

/-- The files that a walk of a directory lists, as a selection of its tree. -/
theorem sources_eq_select (s : Scope) (hdir : d.lstat (Path.absolute d.directory dir) = .ok (.dir t)) :
    d.sources s dir = .ok ((s.select [] t).map fun r =>
      ⟨under (Path.absolute d.directory dir) r.1, r.1⟩) := by
  simp only [sources, hdir]

/-- A file is listed exactly if it is admitted. -/
theorem mem_sources_iff_admits (hd : d.Proper) {s : Scope} {files : List SourceFile}
    (hdir : d.lstat (Path.absolute d.directory dir) = .ok (.dir t)) (hfiles : d.sources s dir = .ok files)
    (f : SourceFile) :
    f ∈ files ↔ ∃ p l, t.getAt? p = some (.leaf l) ∧ s.Admits p ∧
      f = ⟨under (Path.absolute d.directory dir) (Path.relative p), Path.relative p⟩ := by
  have ht : t.Proper := hd.lstat hdir
  rw [sources_eq_select s hdir] at hfiles
  cases hfiles
  rw [List.mem_map]
  constructor
  · rintro ⟨⟨rel, l⟩, hmem, rfl⟩
    obtain ⟨p, hleaf, rfl, hadmits⟩ := (Scope.mem_select_nil_iff ht).mp hmem
    exact ⟨p, l, FileTree.node?_eq_leaf_iff.mp hleaf, hadmits, rfl⟩
  · rintro ⟨p, l, hleaf, hadmits, rfl⟩
    refine ⟨(Path.relative p, l), (Scope.mem_select_nil_iff ht).mpr ?_, rfl⟩
    exact ⟨p, FileTree.node?_eq_leaf_iff.mpr hleaf, rfl, hadmits⟩

/-- Files are listed in the order of their names, compared one after the other. -/
theorem pairwise_sources (hd : d.Proper) {s : Scope} {files : List SourceFile}
    (hdir : d.lstat (Path.absolute d.directory dir) = .ok (.dir t)) (hfiles : d.sources s dir = .ok files) :
    files.Pairwise fun f g =>
      List.Lex Text.Precedes (f.relPath.splitOn 0x2f) (g.relPath.splitOn 0x2f) := by
  rw [sources_eq_select s hdir] at hfiles
  cases hfiles
  rw [List.pairwise_map]
  exact Scope.pairwise_select (s := s) (hd.lstat hdir) (List.forall_mem_nil Text.IsName)

/-- **Which files a walk lists.** The walk of a directory lists a file exactly if its path is selected
and no directory on the way to it is excluded. It lists nothing else and no file twice, and paths come
in the order that compares them name by name. -/
theorem sources_admitted {d : Disk} (hd : d.Proper) (s : Scope) {dir : Text} {t : FileTree Leaf}
    (hdir : d.lstat (Path.absolute d.directory dir) = .ok (.dir t)) :
    ∃ files, d.sources s dir = .ok files ∧
      (∀ f, f ∈ files ↔ ∃ p l, t.getAt? p = some (.leaf l) ∧ s.Admits p ∧
        f = ⟨under (Path.absolute d.directory dir) (Path.relative p), Path.relative p⟩) ∧
      files.Nodup ∧
      files.Pairwise fun f g =>
        List.Lex Text.Precedes (f.relPath.splitOn 0x2f) (g.relPath.splitOn 0x2f) :=
  have hfiles := sources_eq_select s hdir
  ⟨_, hfiles, mem_sources_iff_admits hd hdir hfiles, List.Nodup.of_map _ (hd.nodup_sources hfiles),
    pairwise_sources hd hdir hfiles⟩

/-- A tree in which the order of whole paths is another one: `a.js` comes before `a/b.js` bytewise. -/
def nestedClasses : Disk :=
  (Disk.apply {} (.write "/a.js" "function A")).apply (.write "/a/b.js" "function B")
    |>.apply (.write "/skip/c.js" "function C")

theorem sources_admitted_nestedClasses :
    let s : Scope := { included := fun p => p.endsWith ".js", excluded := fun p => p = "skip/" }
    ∃ t, nestedClasses.lstat "/" = .ok (.dir t) ∧
      nestedClasses.sources s "/" = .ok [⟨"/a/b.js", "a/b.js"⟩, ⟨"/a.js", "a.js"⟩] ∧
      ∃ files, nestedClasses.sources s "/" = .ok files ∧
        ∀ f, f ∈ files ↔ ∃ p l, t.getAt? p = some (.leaf l) ∧ s.Admits p ∧
          f = ⟨under "/" (Path.relative p), Path.relative p⟩ := by
  intro s
  have hproper : nestedClasses.Proper := ((proper_empty.apply _).apply _).apply _
  have hdir : nestedClasses.lstat (Path.absolute nestedClasses.directory "/") =
      .ok (.dir nestedClasses.root) := by
    decide +kernel
  obtain ⟨files, hfiles, hmem, -⟩ := sources_admitted hproper s hdir
  refine ⟨nestedClasses.root, hdir, ?_, files, hfiles, hmem⟩
  decide +kernel

end Disk

end StubDecl
