import StubDecl.Project.Convert
import StubDecl.Proofs.File.Creation

/-!
# Stores on a disk

What a conversion does to the cache stores on a disk, whatever links there are: making directories does
nothing to them (`Disk.storeAt?_makeDirsFrom`), opening and writing a declaration file changes what is at
its place and nothing else (`Disk.storeAt?_create`, `Disk.storeAt?_flush`), and so does writing a store
(`StoreFile.storeAt?_flush`). All this because a path that is followed ends in a directory
(`Disk.dir_above_place`).
-/

namespace StubDecl

/-- The store that a leaf is, if it is one. -/
def Leaf.store? : Leaf → Option BlockStore
  | .store s => some s
  | .file _ | .link _ => none

namespace Disk

/-- The store at a place, if there is one. -/
def storeAt? (d : Disk) (place : List Text) : Option BlockStore :=
  match d.root.node? place with
  | some (.leaf l) => l.store?
  | some .dir | none => none

variable {d d' : Disk} {place q : List Text} {p : Text}

/-! ## Where a path ends -/

/-- Names are followed from directory to directory, also behind links. -/
theorem dir_above_follow {t : FileTree Leaf} {last : Bool} {fuel links : Nat} {here ns at_ : List Text}
    (hhere : t.node? here.reverse = some .dir) (h : follow t last fuel links here ns = .ok at_) :
    t.node? at_.reverse.dropLast = some .dir := by
  have hup : ∀ {ms : List Text}, t.node? ms.reverse = some .dir →
      t.node? ms.reverse.dropLast = some .dir := fun hms => FileTree.node?_dropLast (by rw [hms]; nofun)
  have hdown : ∀ (n : Text) (ms : List Text), (n :: ms).reverse.dropLast = ms.reverse := by simp
  fun_induction follow t last fuel links here ns with
  | case1 | case6 | case9 | case12 => cases h
  | case2 =>
    cases h
    exact hup hhere
  | case3 _ _ _ _ ih => exact ih hhere h
  | case4 _ _ here _ _ ih =>
    refine ih ?_ h
    rw [List.drop_one, ← List.dropLast_reverse]
    exact hup hhere
  | case5 | case8 | case11 =>
    cases h
    rw [hdown]
    exact hhere
  | case7 _ _ here n _ _ _ es hget ih =>
    refine ih ?_ h
    rw [List.reverse_cons]
    exact FileTree.node?_eq_dir_iff.mpr ⟨es, hget⟩
  | case10 _ _ here _ _ _ target _ _ _ start ih =>
    refine ih ?_ h
    simp only [start]
    split
    · rfl
    · exact hhere

/-- Where a path ends there is a directory above. -/
theorem dir_above_place {last : Bool} (h : d.place last p = .ok place) :
    d.root.node? place.dropLast = some .dir := by
  simp only [Disk.place] at h
  split at h
  · cases h
  · cases hf : follow d.root last _ maxLinks [] _ with
    | error f =>
      rw [hf] at h
      cases h
    | ok at_ =>
      rw [hf] at h
      cases h
      exact dir_above_follow rfl hf

/-- A file can be put where it is to be written. -/
theorem dir_above_placeForWriting (h : d.placeForWriting p = .ok place) :
    d.root.node? place.dropLast = some .dir ∧ d.root.node? place ≠ some .dir :=
  ⟨dir_above_place (placeForWriting_eq_ok h).1, not_dir_placeForWriting h⟩

/-! ## What keeps a store -/

/-- What is put at a place without a directory changes no other place. -/
theorem storeAt?_withLeaf (habove : d.root.node? place.dropLast = some .dir)
    (hno : d.root.node? place ≠ some .dir) (l : Leaf) (q : List Text) :
    (d.withLeaf place l).storeAt? q = if q = place then l.store? else d.storeAt? q := by
  have hne : place ≠ [] := by
    rintro rfl
    exact hno rfl
  have hnode := FileTree.node?_setAt_flat (e := .leaf l) hne habove hno (fun _ _ => rfl) q
  rw [storeAt?, withLeaf, hnode]
  by_cases hq : q = place
  · rw [if_pos hq, if_pos hq]
    rfl
  · rw [if_neg hq, if_neg hq]
    rfl

/-- A leaf at a place is what is there. -/
theorem node?_withLeaf (habove : d.root.node? place.dropLast = some .dir)
    (hno : d.root.node? place ≠ some .dir) (l : Leaf) :
    (d.withLeaf place l).root.node? place = some (.leaf l) := by
  have hne : place ≠ [] := by
    rintro rfl
    exact hno rfl
  exact (FileTree.node?_setAt_flat (e := .leaf l) hne habove hno (fun _ _ => rfl) place).trans (if_pos rfl)

/-- A leaf is put in the place of another one. -/
theorem dir_above_leaf {l : Leaf} (h : d.root.node? place = some (.leaf l)) :
    d.root.node? place.dropLast = some .dir ∧ d.root.node? place ≠ some .dir :=
  ⟨FileTree.node?_dropLast (by rw [h]; nofun), by rw [h]; nofun⟩

theorem storeAt?_makeDir (h : d.makeDir p = .ok d') (q : List Text) : d'.storeAt? q = d.storeAt? q := by
  obtain ⟨place, hplace, hget, rfl⟩ := makeDir_eq_ok h
  have hnone := FileTree.node?_eq_none_iff.mpr hget
  have hne : place ≠ [] := by
    rintro rfl
    cases hget
  have hnode := FileTree.node?_setAt_flat (e := .dir .nil) hne (dir_above_place hplace)
    (by simp [hnone]) FileTree.node?_nil_eq_none q
  rw [storeAt?, storeAt?, hnode]
  by_cases hq : q = place
  · subst hq
    rw [if_pos rfl, hnone]
    rfl
  · rw [if_neg hq]

/-- Making directories leaves all stores alone. -/
theorem storeAt?_makeDirsFrom {fuel : Nat} (h : d.makeDirsFrom fuel p = .ok d') (q : List Text) :
    d'.storeAt? q = d.storeAt? q :=
  makeDirsFrom_induction (P := fun d₁ => d₁.storeAt? q = d.storeAt? q)
    (fun hkept hmake => (storeAt?_makeDir hmake q).trans hkept) rfl h

/-- Opening a declaration file leaves all stores alone, but for one in its place. -/
theorem storeAt?_create {path header : Text} {out : OutputFile}
    (h : OutputFile.create d path header = .ok (d', out)) :
    (∀ q ≠ out.place, d'.storeAt? q = d.storeAt? q) ∧ ∃ l, d'.root.node? out.place = some (.leaf l) := by
  obtain ⟨d₁, place, hmade, hplace, rfl, rfl⟩ := OutputFile.create_eq_ok h
  obtain ⟨habove, hno⟩ := dir_above_placeForWriting hplace
  refine ⟨fun q hq => ?_, _, node?_withLeaf habove hno _⟩
  rw [storeAt?_withLeaf habove hno, if_neg hq, storeAt?_makeDirsFrom hmade]

/-- Writing to a declaration file leaves all stores alone, but for one in its place. -/
theorem storeAt?_flush (out : OutputFile) {l : Leaf} (h : d.root.node? out.place = some (.leaf l))
    (hq : q ≠ out.place) : (out.flush d).storeAt? q = d.storeAt? q := by
  obtain ⟨habove, hno⟩ := dir_above_leaf h
  rw [OutputFile.flush, storeAt?_withLeaf habove hno, if_neg hq]

/-- A store is at a leaf. -/
theorem exists_leaf_of_storeAt? {s : BlockStore} (h : d.storeAt? place = some s) :
    ∃ l, d.root.node? place = some (.leaf l) := by
  rw [storeAt?] at h
  split at h
  · next l hl => exact ⟨l, hl⟩
  · cases h
  · cases h

end Disk

namespace StoreFile

open Disk

variable {d : Disk} {f : StoreFile}

theorem openAt_eq_ok {path : Text} (h : openAt d path = .ok f) :
    d.placeForWriting path = .ok f.place ∧ storeIn (d.root.getAt? f.place) = .ok f.store := by
  obtain ⟨place, hplace, h⟩ := Outcome.bind_eq_ok h
  obtain ⟨s, hstore, h⟩ := Outcome.bind_eq_ok h
  cases h
  exact ⟨hplace, hstore⟩

/-- What is read of a store file is the store at its place, or an empty one where there is none. -/
theorem store_of_openAt {path : Text} (h : openAt d path = .ok f) :
    d.storeAt? f.place = some f.store ∨ d.storeAt? f.place = none ∧ f.store = {} := by
  obtain ⟨-, hstore⟩ := openAt_eq_ok h
  rw [storeAt?, FileTree.node?]
  generalize d.root.getAt? f.place = e at hstore ⊢
  generalize f.store = s at hstore ⊢
  cases e with
  | none =>
    cases hstore
    exact .inr ⟨rfl, rfl⟩
  | some e =>
    cases e with
    | dir es => cases hstore
    | leaf l =>
      cases l with
      | link target => cases hstore
      | store t =>
        cases hstore
        exact .inl rfl
      | file text =>
        cases text with
        | cons b bs => cases hstore
        | nil =>
          cases hstore
          exact .inr ⟨rfl, rfl⟩

/-- A store that is written to its file is at the place of the file. -/
theorem storeAt?_flush (f : StoreFile) (habove : d.root.node? f.place.dropLast = some .dir)
    (hno : d.root.node? f.place ≠ some .dir) : (f.flush d).storeAt? f.place = some f.store := by
  rw [flush, storeAt?_withLeaf habove hno, if_pos rfl]
  rfl

end StoreFile

end StubDecl
