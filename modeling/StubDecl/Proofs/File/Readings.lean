import StubDecl.Proofs.File.Plain
import StubDecl.Proofs.File.Walk

/-!
# What a conversion reads

A conversion of a directory reads the files of a walk, each with its relative path and its content
(`Disk.readings`). On plain disks this is decided by the files that the walk admits
(`Disk.Leads.readings_congr`).
-/

namespace StubDecl.Disk

/-- A path means the directory at a place of a plain disk. -/
structure Leads (d : Disk) (dir : Text) (top : List Text) : Prop where
  plain : d.Plain
  ordinary : ∀ n ∈ top, n.IsOrdinary
  path : d.absolute dir = Path.rooted top
  there : d.root.node? top = some .dir

/-- Every path at which a directory is found means one. -/
theorem Plain.leads {d : Disk} (hd : d.Plain) {dir : Text} {t : FileTree Leaf}
    (hdir : d.lstat (d.absolute dir) = .ok (.dir t)) :
    d.Leads dir (d.ownPlace (d.absolute dir)) := by
  obtain ⟨top, htop, hpath⟩ := hd.exists_names dir
  rw [hpath, hd.lstat_eq_ok_iff htop] at hdir
  have hthere : d.root.node? top = some .dir := FileTree.node?_eq_dir_iff.mpr ⟨t, hdir⟩
  have hplace : d.ownPlace (d.absolute dir) = top := by
    rw [hpath]
    exact hd.ownPlace_eq htop (FileTree.node?_dropLast (by rw [hthere]; nofun))
  rw [hplace]
  exact ⟨hd, htop, hpath, hthere⟩

/-- The relative paths and the contents of the files that a walk lists. -/
def readings (d : Disk) (s : Scope) (dir : Text) : Outcome (List (Text × Outcome Text)) :=
  (d.sources s dir).map fun files => files.map fun f => (f.relPath, d.contentOf f.path)

namespace Leads

variable {d d' : Disk} {s : Scope} {dir : Text} {top : List Text}

theorem ownPlace_eq (h : d.Leads dir top) : d.ownPlace (d.absolute dir) = top := by
  rw [h.path]
  exact h.plain.ownPlace_eq h.ordinary (FileTree.node?_dropLast (by rw [h.there]; nofun))

/-- The names below the directory are ordinary. -/
theorem ordinary_below (h : d.Leads dir top) {p : List Text} (hp : d.root.node? (top ++ p) ≠ none) :
    ∀ n ∈ p, n.IsOrdinary :=
  fun n hn => h.plain.root.ordinary _ hp n (List.mem_append_right top hn)

/-- A file below the directory lies in a directory. -/
theorem exists_concat (h : d.Leads dir top) {p : List Text} {l : Leaf}
    (hp : d.root.node? (top ++ p) = some (.leaf l)) :
    ∃ init n, p = init ++ [n] ∧ d.root.node? (top ++ init) = some .dir := by
  obtain rfl | ⟨init, n, rfl⟩ := List.eq_nil_or_concat' p
  · rw [List.append_nil, h.there] at hp
    cases hp
  · refine ⟨init, n, rfl, FileTree.node?_of_append ?_ (List.cons_ne_nil n [])⟩
    rw [List.append_assoc, hp]
    nofun

/-- The files of the walk: where they are, what they are called and in which order they come. -/
theorem exists_sources (h : d.Leads dir top) (s : Scope) :
    ∃ files, d.sources s dir = .ok files ∧
      (∀ f, f ∈ files ↔ ∃ p l, d.root.node? (top ++ p) = some (.leaf l) ∧ s.Admits p ∧
        f = ⟨Path.rooted (top ++ p), Path.relative p⟩) ∧
      files.Nodup ∧
      files.Pairwise fun f g =>
        List.Lex Text.Precedes (f.relPath.splitOn 0x2f) (g.relPath.splitOn 0x2f) := by
  obtain ⟨t, hget⟩ := FileTree.node?_eq_dir_iff.mp h.there
  have hpath : Path.absolute d.directory dir = Path.rooted top := h.path
  have hdir : d.lstat (Path.absolute d.directory dir) = .ok (.dir t) := by
    rw [hpath]
    exact (h.plain.lstat_eq_ok_iff h.ordinary).mpr hget
  have hproper : d.Proper := h.plain.root.proper
  have hfiles := sources_eq_select s hdir
  refine ⟨_, hfiles, fun f => (mem_sources_iff_admits hproper hdir hfiles f).trans ?_,
    List.Nodup.of_map _ (hproper.nodup_sources hfiles), pairwise_sources hproper hdir hfiles⟩
  have hleaf : ∀ p l, t.getAt? p = some (.leaf l) ↔ d.root.node? (top ++ p) = some (.leaf l) := by
    intro p l
    rw [← FileTree.node?_eq_leaf_iff, FileTree.node?_append, hget]
    rfl
  have hunder : ∀ p l, t.getAt? p = some (.leaf l) →
      under (Path.rooted top) (Path.relative p) = Path.rooted (top ++ p) := by
    intro p l hp
    have hne : p ≠ [] := by
      rintro rfl
      cases hp
    rw [under_rooted h.ordinary, ← Path.relative_append top hne]
    rfl
  rw [hpath]
  constructor
  · rintro ⟨p, l, hp, hadmits, rfl⟩
    exact ⟨p, l, (hleaf p l).mp hp, hadmits, by rw [hunder p l hp]⟩
  · rintro ⟨p, l, hp, hadmits, rfl⟩
    exact ⟨p, l, (hleaf p l).mpr hp, hadmits, by rw [hunder p l ((hleaf p l).mpr hp)]⟩

/-- The walk lists a file if it is admitted. -/
theorem mem_sources_iff (h : d.Leads dir top) {files : List SourceFile}
    (hfiles : d.sources s dir = .ok files) {names : List Text} {l : Leaf}
    (hleaf : d.root.node? (top ++ names) = some (.leaf l)) :
    ⟨Path.rooted (top ++ names), Path.relative names⟩ ∈ files ↔ s.Admits names := by
  obtain ⟨files', hfiles', hmem, -⟩ := h.exists_sources s
  obtain rfl : files = files' := Except.ok.inj (hfiles.symm.trans hfiles')
  rw [hmem]
  constructor
  · rintro ⟨p, l', hp, hadmits, hsame⟩
    have hnames := h.ordinary_below (by rw [hleaf]; nofun)
    have hpnames := h.ordinary_below (by rw [hp]; nofun)
    rw [Path.relative_inj hnames hpnames (SourceFile.mk.inj hsame).2]
    exact hadmits
  · intro hadmits
    exact ⟨names, l, hleaf, hadmits, rfl⟩

/-- The admitted files decide what is listed. -/
theorem sources_congr (h : d.Leads dir top) (h' : d'.Leads dir top)
    (hsame : ∀ p, s.Admits p → ((∃ l, d.root.node? (top ++ p) = some (.leaf l)) ↔
      ∃ l, d'.root.node? (top ++ p) = some (.leaf l))) :
    d.sources s dir = d'.sources s dir := by
  obtain ⟨files, hfiles, hmem, hnodup, hsorted⟩ := h.exists_sources s
  obtain ⟨files', hfiles', hmem', hnodup', hsorted'⟩ := h'.exists_sources s
  have hiff : ∀ f, f ∈ files ↔ f ∈ files' := by
    intro f
    rw [hmem, hmem']
    constructor
    · rintro ⟨p, l, hp, hadmits, rfl⟩
      obtain ⟨l', hp'⟩ := (hsame p hadmits).mp ⟨l, hp⟩
      exact ⟨p, l', hp', hadmits, rfl⟩
    · rintro ⟨p, l, hp, hadmits, rfl⟩
      obtain ⟨l', hp'⟩ := (hsame p hadmits).mpr ⟨l, hp⟩
      exact ⟨p, l', hp', hadmits, rfl⟩
  -- Lists with the same members are the same if both are in order.
  obtain rfl : files = files' := by
    refine List.Perm.eq_of_pairwise (fun f g _ _ hfg hgf => ?_) hsorted hsorted'
      ((List.perm_ext_iff_of_nodup hnodup hnodup').mpr hiff)
    exact absurd hgf (asymm hfg)
  rw [hfiles, hfiles']

/-- **The admitted files decide what is read**, with their contents. -/
theorem readings_congr (h : d.Leads dir top) (h' : d'.Leads dir top)
    (hsame : ∀ p l, s.Admits p →
      (d.root.node? (top ++ p) = some (.leaf l) ↔ d'.root.node? (top ++ p) = some (.leaf l))) :
    d.readings s dir = d'.readings s dir := by
  obtain ⟨files, hfiles, hmem, -⟩ := h.exists_sources s
  have hfiles' : d'.sources s dir = .ok files := by
    rw [← hfiles]
    exact (h.sources_congr h' fun p hadmits => exists_congr fun l => hsame p l hadmits).symm
  rw [readings, readings, hfiles, hfiles']
  simp only [Except.map, Except.ok.injEq]
  refine List.map_congr_left fun f hf => ?_
  obtain ⟨p, l, hp, hadmits, rfl⟩ := (hmem f).mp hf
  obtain ⟨c, rfl⟩ := h.plain.root.files _ l hp
  have hordinary := h.plain.root.ordinary (top ++ p) (by rw [hp]; nofun)
  have hp' := (hsame p (.file c) hadmits).mp hp
  rw [h.plain.contentOf_eq hordinary (FileTree.node?_eq_leaf_iff.mp hp),
    h'.plain.contentOf_eq hordinary (FileTree.node?_eq_leaf_iff.mp hp')]

end Leads

end StubDecl.Disk
