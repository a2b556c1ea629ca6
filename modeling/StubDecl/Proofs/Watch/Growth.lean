import StubDecl.Proofs.File.Change
import StubDecl.Proofs.Watch.Scope

/-!
# Watcher and walk agree while a tree grows

A watcher and the walk of its directory select files by the same patterns in two ways, the watcher bit by
bit as directories are created. They agree after any such creations (`Watcher.agrees_with_walk`).
-/

namespace StubDecl

namespace Watcher

variable {w : Watcher} {s : Scope} {d : Disk} {dir : Text} {top : List Text}

/-- A written file is reported: it lies in a directory under watch, and its path is selected. -/
def Hears (w : Watcher) (place : List Text) : Prop :=
  ∃ x ∈ w.watches, ∃ n, place = x.place ++ [n] ∧ w.scope.selects (x.entry n) = true

theorem Attends.hears_iff (h : w.Attends s d dir top) {p : List Text} {l : Leaf}
    (hp : d.root.node? (top ++ p) = some (.leaf l)) :
    w.Hears (top ++ p) ↔ s.Admits p := by
  have hnames : ∀ m ∈ p, m.IsOrdinary := h.ordinary_below (by rw [hp]; nofun)
  obtain ⟨names, n, rfl, hup⟩ := h.exists_concat hp
  have hentry : (Watch.on top names).entry n = Path.relative (names ++ [n]) :=
    Watch.entry_on (fun m hm => hnames m (List.mem_append_left [n] hm)) n
  rw [Scope.Admits, List.dropLast_concat, Hears, h.inStep.scope]
  constructor
  · rintro ⟨x, hx, n', hplace, hsel⟩
    obtain ⟨names', -, hway, rfl⟩ := (h.inStep.mem_iff x).mp hx
    rw [← List.append_assoc] at hplace
    obtain ⟨hsame, hlast⟩ := List.append_inj' hplace rfl
    obtain rfl : names = names' := List.append_cancel_left hsame
    obtain rfl : n = n' := List.head_eq_of_cons_eq hlast
    rw [hentry] at hsel
    exact ⟨hsel, hway⟩
  · rintro ⟨hsel, hway⟩
    refine ⟨Watch.on top names, (h.inStep.mem_iff _).mpr ⟨names, hup, hway, rfl⟩, n, ?_, ?_⟩
    · rw [Watch.on, List.append_assoc]
    · rw [hentry]
      exact hsel

/-- To hear of a written file is to report it. -/
theorem Attends.mem_appear_iff_hears (h : w.Attends s d dir top) {p : List Text} {l : Leaf}
    (hp : d.root.node? (top ++ p) = some (.leaf l)) :
    Path.relative p ∈ (w.appear d.root (top ++ p)).2 ↔ w.Hears (top ++ p) := by
  rw [h.hears_iff hp]
  obtain ⟨names, n, rfl, -⟩ := h.exists_concat hp
  have hnoticed := h.inStep.noticed h.plain.root.ordinary h.plain.root.proper h.plain.root.ordinary
    rfl (by rw [hp]; nofun)
  rw [hnoticed.reported_iff]
  constructor
  · rintro ⟨q, a, hleaf, hadmits, hsame⟩
    rw [Path.relative_inj (h.ordinary_below (by rw [hp]; nofun))
      (h.ordinary_below (by rw [hleaf]; nofun)) hsame]
    exact hadmits
  · intro hadmits
    exact ⟨[], l, hp, hadmits, rfl⟩

end Watcher

/-! ## Directories that are created -/

namespace Disk

/-- The disk after a directory has been created with all that is in it. -/
def withDir (d : Disk) (place : List Text) (es : FileTree Leaf) : Disk :=
  { d with root := d.root.setAt place (.dir es) }

/-- Names below a directory under which something can be created: there is nothing yet, and the
directory above is there. -/
structure Vacant (d : Disk) (top names : List Text) : Prop where
  ne_nil : names ≠ []
  ordinary : ∀ n ∈ names, n.IsOrdinary
  above : d.root.node? (top ++ names.dropLast) = some .dir
  nothing : d.root.node? (top ++ names) = none

namespace Vacant

variable {d : Disk} {top names : List Text}

theorem dropLast_eq (h : d.Vacant top names) : (top ++ names).dropLast = top ++ names.dropLast :=
  List.dropLast_append_of_ne_nil h.ne_nil

/-- What is in the new directory. -/
theorem node?_in (h : d.Vacant top names) (es : FileTree Leaf) (q : List Text) :
    (d.withDir (top ++ names) es).root.node? (top ++ names ++ q) = es.node? q := by
  refine FileTree.node?_setAt_append (by simp [h.ne_nil]) ?_ (.dir es) q
  rw [h.dropLast_eq]
  exact h.above

theorem grows (h : d.Vacant top names) (es : FileTree Leaf) :
    d.root.Grows (d.withDir (top ++ names) es).root (top ++ names) := by
  have hnone : ∀ q, top ++ names <+: q → d.root.node? q = none := by
    intro q hpre
    by_cases hq : top ++ names = q
    · rw [← hq]
      exact h.nothing
    · exact FileTree.node?_eq_none_of_isPrefix (by rw [h.nothing]; nofun) hpre hq
  refine ⟨?_, fun q hpre => FileTree.node?_setAt_elsewhere hpre _ _, fun q hpre hq => ?_,
    fun q a hpre hq => ?_⟩
  · have hin := h.node?_in es []
    rw [List.append_nil] at hin
    rw [hin]
    nofun
  · rw [hnone q hpre] at hq
    cases hq
  · rw [hnone q hpre] at hq
    cases hq

theorem plain (h : d.Vacant top names) (hd : d.Plain) (htop : ∀ n ∈ top, n.IsOrdinary)
    {es : FileTree Leaf} (hes : es.Plain) : (d.withDir (top ++ names) es).Plain := by
  refine ⟨hd.root.setAt (by simp [h.ne_nil]) ?_ (List.forall_mem_append.mpr ⟨htop, h.ordinary⟩) hes,
    hd.directory⟩
  rw [h.dropLast_eq]
  exact h.above

end Vacant

end Disk

namespace Watcher

variable {w : Watcher} {s : Scope} {d : Disk} {dir : Text} {top names : List Text} {es : FileTree Leaf}

/-- **A watcher keeps attending** when a directory is created, and it reports the files in the directory
that the walk lists. -/
theorem Attends.create (h : w.Attends s d dir top) (hvacant : d.Vacant top names) (hes : es.Plain) :
    let d' := d.withDir (top ++ names) es
    let v := w.appear d'.root (top ++ names)
    v.1.Attends s d' dir top ∧ ∀ r, r ∈ v.2 ↔ ∃ p l, names <+: p ∧
      d'.root.node? (top ++ p) = some (.leaf l) ∧ s.Admits p ∧ r = Path.relative p := by
  have hgrows := hvacant.grows es
  refine h.appear ⟨hvacant.plain h.plain h.ordinary hes, h.ordinary, h.path, ?_⟩ hvacant.ne_nil hgrows
  rw [hgrows.elsewhere top (FileTree.not_append_isPrefix hvacant.ne_nil), h.there]

/-- What a watcher of a directory and the disk come to by creations of directories, each with all that
is in it, of which the watcher learns. -/
inductive Grown (s : Scope) (dir : Text) : Watcher → Disk → Prop where
  | start {d : Disk} {t : FileTree Leaf} (plain : d.Plain)
      (there : d.lstat (d.absolute dir) = .ok (.dir t)) :
      Grown s dir (start s d.root (d.ownPlace (d.absolute dir))) d
  | create {w : Watcher} {d : Disk} {names : List Text} {es : FileTree Leaf} (before : Grown s dir w d)
      (vacant : d.Vacant (d.ownPlace (d.absolute dir)) names) (plain : es.Plain) :
      Grown s dir
        (w.appear (d.withDir (d.ownPlace (d.absolute dir) ++ names) es).root
          (d.ownPlace (d.absolute dir) ++ names)).1
        (d.withDir (d.ownPlace (d.absolute dir) ++ names) es)

theorem Grown.attends (h : Grown s dir w d) : w.Attends s d dir (d.ownPlace (d.absolute dir)) := by
  induction h with
  | start plain there => exact attends_start s plain there
  | create before vacant plain ih =>
    have hnext := (ih.create vacant plain).1
    rwa [hnext.ownPlace_eq]

/-- The paths that start with that of a created directory are those of the files in it. -/
theorem Attends.base_prefix_iff (h : w.Attends s (d.withDir (top ++ names) es) dir top)
    (hvacant : d.Vacant top names) {p : List Text} {l : Leaf}
    (hp : (d.withDir (top ++ names) es).root.node? (top ++ p) = some (.leaf l)) :
    Path.base names <+: Path.relative p ↔ names <+: p := by
  have hdir := hvacant.node?_in es []
  have hnil : p ≠ [] := by
    rintro rfl
    rw [List.append_nil, h.there] at hp
    cases hp
  have hother : p ≠ names := by
    rintro rfl
    rw [List.append_nil] at hdir
    rw [hdir] at hp
    cases hp
  have hnames : ∀ n ∈ names, n.IsName := fun n hn => (hvacant.ordinary n hn).isName
  have hpnames : ∀ n ∈ p, n.IsName := fun n hn => (h.ordinary_below (by rw [hp]; nofun) n hn).isName
  rw [Path.base_prefix_relative_iff hnames hnil hpnames]
  exact and_iff_left hother

/-- **Watcher and walk agree**, after any creations of directories with all that is in them. The
directories under watch are those that the walk enters, with the directory itself. A written file is
reported if and only if it lies in a directory under watch and its path is selected, and that is if and
only if the walk lists it. And of the next directory that is created exactly those files are reported that
the walk then lists in it. -/
theorem agrees_with_walk (h : Grown s dir w d) :
    let top := d.ownPlace (d.absolute dir)
    (∀ place, place ∈ w.watches.map Watch.place ↔
      ∃ names, place = top ++ names ∧ d.root.node? place = some .dir ∧ s.Enters names) ∧
    (∃ files, d.sources s dir = .ok files ∧
      ∀ names l, d.root.node? (top ++ names) = some (.leaf l) →
        (w.Hears (top ++ names) ↔ ⟨Path.rooted (top ++ names), Path.relative names⟩ ∈ files) ∧
        (Path.relative names ∈ (w.appear d.root (top ++ names)).2 ↔ w.Hears (top ++ names))) ∧
    ∀ names es, d.Vacant top names → es.Plain →
      ∃ files, (d.withDir (top ++ names) es).sources s dir = .ok files ∧
        ∀ r, r ∈ (w.appear (d.withDir (top ++ names) es).root (top ++ names)).2 ↔
          ∃ f ∈ files, f.relPath = r ∧ Path.base names <+: r := by
  intro top
  have hattends : w.Attends s d dir top := h.attends
  refine ⟨fun place => ?_, ?_, fun names es hvacant hes => ?_⟩
  · rw [List.mem_map]
    constructor
    · rintro ⟨x, hx, rfl⟩
      obtain ⟨names, hdir, hway, rfl⟩ := (hattends.inStep.mem_iff x).mp hx
      exact ⟨names, rfl, hdir, hway⟩
    · rintro ⟨names, rfl, hdir, hway⟩
      exact ⟨Watch.on top names, (hattends.inStep.mem_iff _).mpr ⟨names, hdir, hway, rfl⟩, rfl⟩
  · obtain ⟨files, hfiles, -⟩ := hattends.exists_sources s
    refine ⟨files, hfiles, fun names l hleaf => ⟨?_, hattends.mem_appear_iff_hears hleaf⟩⟩
    rw [hattends.hears_iff hleaf, hattends.mem_sources_iff hfiles hleaf]
  · obtain ⟨hnext, hreported⟩ := hattends.create hvacant hes
    obtain ⟨files, hfiles, hmem, -⟩ := hnext.exists_sources s
    refine ⟨files, hfiles, fun r => ?_⟩
    rw [hreported]
    constructor
    · rintro ⟨p, l, hpre, hp, hadmits, rfl⟩
      exact ⟨_, (hmem _).mpr ⟨p, l, hp, hadmits, rfl⟩, rfl, (hnext.base_prefix_iff hvacant hp).mpr hpre⟩
    · rintro ⟨f, hf, rfl, hpre⟩
      obtain ⟨p, l, hp, hadmits, rfl⟩ := (hmem f).mp hf
      exact ⟨p, l, (hnext.base_prefix_iff hvacant hp).mp hpre, hp, hadmits, rfl⟩

/-- Files that come later than the watch starts, in a directory of their own. -/
def laterClasses : Disk :=
  (Disk.apply {} (.write "/d.js" "function D")).apply (.write "/skip/e.js" "function E")

theorem agrees_with_walk_laterClasses :
    let s : Scope := { included := fun p => p.endsWith ".js", excluded := fun p => p.endsWith "skip/" }
    let d := Disk.nestedClasses.withDir ["a", "new"] laterClasses.root
    let w := ((start s Disk.nestedClasses.root []).appear d.root ["a", "new"]).1
    Grown s "/" w d ∧ w.watches.map Watch.place = ([[], ["a"], ["a", "new"]] : List (List Text)) ∧
      ∃ files, d.sources s "/" = .ok files ∧
        (w.Hears ["a", "new", "d.js"] ↔ ⟨"/a/new/d.js", "a/new/d.js"⟩ ∈ files) ∧
        (w.Hears ["a", "new", "skip", "e.js"] ↔ ⟨"/a/new/skip/e.js", "a/new/skip/e.js"⟩ ∈ files) := by
  intro s d w
  have hplain : Disk.nestedClasses.Plain := ((Disk.plain_empty.write _ _).write _ _).write _ _
  have hlater : laterClasses.Plain := (Disk.plain_empty.write _ _).write _ _
  have hvacant : Disk.nestedClasses.Vacant (Disk.nestedClasses.ownPlace "/") ["a", "new"] :=
    { ne_nil := by decide
      ordinary := by decide
      above := by decide +kernel
      nothing := by decide +kernel }
  have hgrown : Grown s "/" w d :=
    .create (.start hplain (t := Disk.nestedClasses.root) (by decide +kernel)) hvacant hlater.root
  obtain ⟨-, ⟨files, hfiles, hhears⟩, -⟩ := agrees_with_walk hgrown
  refine ⟨hgrown, by decide +kernel, files, hfiles, ?_, ?_⟩
  · exact (hhears ["a", "new", "d.js"] (.file "function D") (by decide +kernel)).1
  · exact (hhears ["a", "new", "skip", "e.js"] (.file "function E") (by decide +kernel)).1

end Watcher

end StubDecl
