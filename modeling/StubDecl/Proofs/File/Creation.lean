import StubDecl.File.Output
import StubDecl.Proofs.File.Resolution

/-!
# What opening an output file does to a plain disk

Directories are made, whatever the form of their path (`Disk.Plain.grown_makeDirsFrom`), and the file is
put at its place (`Disk.Plain.holding_create`). Nothing else on the disk changes, and what is appended to
the file changes the file only (`Disk.Holding.flush`).
-/

namespace StubDecl

open FileTree (Entry)

/-- What is set in a place without a directory is all that changes, if there is nothing in it. -/
theorem FileTree.node?_setAt_flat {α : Type} {t : FileTree α} {e : Entry α} {place : List Text}
    (hne : place ≠ []) (habove : t.node? place.dropLast = some .dir) (hno : t.node? place ≠ some .dir)
    (hflat : ∀ n p, e.node? (n :: p) = none) (q : List Text) :
    (t.setAt place e).node? q = if q = place then some e.node else t.node? q := by
  by_cases hpre : place <+: q
  · obtain ⟨r, rfl⟩ := hpre
    rw [node?_setAt_append hne habove]
    cases r with
    | nil => rw [List.append_nil, if_pos rfl, Entry.node?_nil]
    | cons n r =>
      have hlonger : place ++ n :: r ≠ place := by simp
      rw [if_neg hlonger, hflat,
        node?_eq_none_of_isPrefix hno (List.prefix_append place (n :: r)) (Ne.symm hlonger)]
  · have hq : q ≠ place := by
      rintro rfl
      exact hpre List.prefix_rfl
    rw [node?_setAt_elsewhere hpre, if_neg hq]

/-- A declaration file is put where it is to be written, once the directories above it are there. -/
theorem OutputFile.create_eq_ok {d d' : Disk} {path header : Text} {out : OutputFile}
    (h : create d path header = .ok (d', out)) :
    ∃ d₁ place, d.makeDirs (Path.parent path) = .ok d₁ ∧ d₁.placeForWriting path = .ok place ∧
      d' = d₁.withLeaf place (.file (headerText header)) ∧ out = ⟨place, headerText header⟩ := by
  obtain ⟨d₁, hmade, h⟩ := Outcome.bind_eq_ok h
  obtain ⟨place, hplace, h⟩ := Outcome.bind_eq_ok h
  cases h
  exact ⟨d₁, place, hmade, hplace, rfl, rfl⟩

namespace Disk

/-- Directories have been made, and nothing else has happened. -/
structure Grown (d d' : Disk) : Prop where
  plain : d'.Plain
  directory : d'.directory = d.directory
  kept : ∀ q, d.root.node? q ≠ none → d'.root.node? q = d.root.node? q
  new : ∀ q, d.root.node? q = none → d'.root.node? q = none ∨ d'.root.node? q = some .dir

/-- Directories have been made, and a file with the given text is at a place where there was no
directory. -/
structure Holding (d d' : Disk) (place : List Text) (text : Text) : Prop where
  plain : d'.Plain
  directory : d'.directory = d.directory
  not_dir : d.root.node? place ≠ some .dir
  ordinary : ∀ n ∈ place, n.IsOrdinary
  here : d'.root.node? place = some (.leaf (.file text))
  dirs : ∀ q, d.root.node? q = some .dir → d'.root.node? q = some .dir
  leaves : ∀ q l, q ≠ place → (d'.root.node? q = some (.leaf l) ↔ d.root.node? q = some (.leaf l))

variable {d d' d'' : Disk} {place : List Text} {text : Text}

theorem not_dir_placeForWriting {p : Text} (h : d.placeForWriting p = .ok place) :
    d.root.node? place ≠ some .dir := by
  intro hdir
  obtain ⟨es, hes⟩ := FileTree.node?_eq_dir_iff.mp hdir
  exact (placeForWriting_eq_ok h).2 es hes

namespace Grown

theorem refl (hd : d.Plain) : Grown d d := ⟨hd, rfl, fun _ _ => rfl, fun _ h => .inl h⟩

theorem trans (h : Grown d d') (h' : Grown d' d'') : Grown d d'' where
  plain := h'.plain
  directory := h'.directory.trans h.directory
  kept q hq := by rw [h'.kept q (by rwa [h.kept q hq]), h.kept q hq]
  new q hq := by
    obtain hnone | hdir := h.new q hq
    · exact h'.new q hnone
    · exact .inr (by rw [h'.kept q (by rw [hdir]; nofun), hdir])

/-- Making directories makes no files. -/
theorem leaf_iff (h : Grown d d') (q : List Text) (l : Leaf) :
    d'.root.node? q = some (.leaf l) ↔ d.root.node? q = some (.leaf l) := by
  by_cases hq : d.root.node? q = none
  · obtain hnone | hdir := h.new q hq
    · rw [hq, hnone]
    · rw [hq, hdir]
      exact ⟨nofun, nofun⟩
  · rw [h.kept q hq]

end Grown

namespace Plain

theorem grown_makeDir (hd : d.Plain) {p : Text} (h : d.makeDir p = .ok d') : Grown d d' := by
  obtain ⟨place, hplace, hget, rfl⟩ := makeDir_eq_ok h
  obtain ⟨-, hordinary, habove⟩ := hd.place_eq hplace
  have hnone := FileTree.node?_eq_none_iff.mpr hget
  have hne : place ≠ [] := by
    rintro rfl
    cases hget
  have hnode := FileTree.node?_setAt_flat (e := .dir .nil) hne habove (by simp [hnone])
    FileTree.node?_nil_eq_none
  refine ⟨⟨hd.root.setAt hne habove hordinary FileTree.plain_nil, hd.directory⟩, rfl, fun q hq => ?_,
    fun q hq => ?_⟩
  · rw [hnode, if_neg]
    rintro rfl
    exact hq hnone
  · rw [hnode]
    split
    · exact .inr rfl
    · exact .inl hq

theorem grown_makeDirsFrom (hd : d.Plain) {fuel : Nat} {p : Text}
    (h : d.makeDirsFrom fuel p = .ok d') : Grown d d' :=
  makeDirsFrom_induction (fun hgrown hmake => hgrown.trans (hgrown.plain.grown_makeDir hmake)) (.refl hd) h

/-- The disk with a file at the place that was found for it. -/
theorem holding_withLeaf (hd : d.Plain) {p : Text} (hplace : d.placeForWriting p = .ok place) (text : Text) :
    Holding d (d.withLeaf place (.file text)) place text := by
  obtain ⟨hfound, -⟩ := placeForWriting_eq_ok hplace
  have hno := not_dir_placeForWriting hplace
  obtain ⟨-, hordinary, habove⟩ := hd.place_eq hfound
  have hne : place ≠ [] := by
    rintro rfl
    exact hno rfl
  have hnode := FileTree.node?_setAt_flat (e := .leaf (.file text)) hne habove hno fun _ _ => rfl
  refine ⟨⟨hd.root.setAt hne habove hordinary ⟨text, rfl⟩, hd.directory⟩, rfl, hno, hordinary,
    (hnode place).trans (if_pos rfl), fun q hq => ?_, fun q l hq => ?_⟩
  · rw [withLeaf, hnode, if_neg, hq]
    rintro rfl
    exact hno hq
  · rw [withLeaf, hnode, if_neg hq]

/-- **Opening an output file** makes directories and the file, which holds the header. -/
theorem holding_create (hd : d.Plain) {path header : Text} {out : OutputFile}
    (h : OutputFile.create d path header = .ok (d', out)) :
    Holding d d' out.place (OutputFile.headerText header) ∧ out.text = OutputFile.headerText header := by
  obtain ⟨d₁, place, hmade, hplace, rfl, rfl⟩ := OutputFile.create_eq_ok h
  have hgrown := hd.grown_makeDirsFrom hmade
  have hfile := hgrown.plain.holding_withLeaf hplace (OutputFile.headerText header)
  refine ⟨⟨hfile.plain, hfile.directory.trans hgrown.directory, fun hdir => hfile.not_dir ?_,
    hfile.ordinary, hfile.here, fun q hq => hfile.dirs q ?_, fun q l hq => ?_⟩, rfl⟩
  · rw [hgrown.kept place (by rw [hdir]; nofun), hdir]
  · rw [hgrown.kept q (by rw [hq]; nofun), hq]
  · rw [hfile.leaves q l hq, hgrown.leaf_iff]

end Plain

namespace Holding

/-- Another text in the file is all that changes when it is flushed. -/
theorem flush (h : Holding d d' place text) (text' : Text) :
    Holding d (OutputFile.flush ⟨place, text'⟩ d') place text' := by
  have hno : d'.root.node? place ≠ some .dir := by rw [h.here]; nofun
  have hne : place ≠ [] := by
    rintro rfl
    exact hno rfl
  have habove : d'.root.node? place.dropLast = some .dir := FileTree.node?_dropLast (by rw [h.here]; nofun)
  have hnode := FileTree.node?_setAt_flat (e := .leaf (.file text')) hne habove hno fun _ _ => rfl
  refine ⟨⟨h.plain.root.setAt hne habove h.ordinary ⟨text', rfl⟩, h.plain.directory⟩, h.directory,
    h.not_dir, h.ordinary, (hnode place).trans (if_pos rfl), fun q hq => ?_, fun q l hq => ?_⟩
  · simp only [OutputFile.flush, withLeaf]
    rw [hnode, if_neg, h.dirs q hq]
    rintro rfl
    exact h.not_dir hq
  · simp only [OutputFile.flush, withLeaf]
    rw [hnode, if_neg hq, h.leaves q l hq]

theorem leads (h : Holding d d' place text) {dir : Text} {top : List Text} (hdir : d.Leads dir top) :
    d'.Leads dir top where
  plain := h.plain
  ordinary := hdir.ordinary
  path := by
    rw [absolute, h.directory]
    exact hdir.path
  there := h.dirs top hdir.there

/-- The file can be read. -/
theorem contentOf_place (h : Holding d d' place text) : d'.contentOf (Path.rooted place) = .ok text :=
  h.plain.contentOf_eq h.ordinary (FileTree.node?_eq_leaf_iff.mp h.here)

/-- All other files can be read as before. -/
theorem contentOf_eq (h : Holding d d' place text) (hd : d.Plain) {q : List Text} {l : Leaf}
    (hq : q ≠ place) (hleaf : d.root.node? q = some (.leaf l)) :
    d'.contentOf (Path.rooted q) = d.contentOf (Path.rooted q) := by
  obtain ⟨c, rfl⟩ := hd.root.files q l hleaf
  have hordinary := hd.root.ordinary q (by rw [hleaf]; nofun)
  rw [hd.contentOf_eq hordinary (FileTree.node?_eq_leaf_iff.mp hleaf),
    h.plain.contentOf_eq hordinary (FileTree.node?_eq_leaf_iff.mp ((h.leaves q _ hq).mpr hleaf))]

end Holding

end Disk

end StubDecl
