import StubDecl.Proofs.File.Change
import StubDecl.Proofs.Watch.Scope

/-!
# What is written or made

A written file, or a directory that is made, shows at the first place on the way to it that was missing
(`Watcher.Reaches.grows`). So a watcher keeps up with what is written and made: it goes on attending, and
reports something if another list of files or contents is read then (`Watcher.Attends.write`,
`Watcher.Attends.makeDir`).
-/

namespace StubDecl

/-! ## Changes below a directory -/

namespace Disk

/-- A path lies below a directory. -/
def Below (d : Disk) (dir p : Text) : Prop :=
  ∃ rel, rel ≠ [] ∧ d.absolute p = under (d.absolute dir) rel

/-- A change to files and directories below a directory. -/
def Change.Below (d : Disk) (dir : Text) : Change → Prop
  | .write p _ => d.Below dir p
  | .remove p => d.Below dir p
  | .makeDir p => d.Below dir p
  | .rename p q => d.Below dir p ∧ d.Below dir q
  | .link _ _ => False

namespace Leads

variable {d d' : Disk} {s : Scope} {dir p : Text} {top : List Text}

/-- The names of a path below the directory. -/
theorem exists_below (h : d.Leads dir top) (hp : d.Below dir p) : ∃ names, names ≠ [] ∧
    (∀ n ∈ top ++ names, n.IsOrdinary) ∧ d.absolute p = Path.rooted (top ++ names) := by
  obtain ⟨rel, hrel, hunder⟩ := hp
  obtain ⟨ns, hns, hpath⟩ := h.plain.exists_names p
  rw [h.path, hpath] at hunder
  obtain ⟨names, hne, rfl⟩ := exists_of_under hns h.ordinary hrel hunder
  exact ⟨names, hne, hns, hpath⟩

theorem next (h : d.Leads dir top) (hplain : d'.Plain) (hdirectory : d'.directory = d.directory)
    (hthere : d'.root.node? top = some .dir) : d'.Leads dir top := by
  refine ⟨hplain, h.ordinary, ?_, hthere⟩
  rw [absolute, hdirectory]
  exact h.path

/-- If something else is read, it is because of an admitted file that has come, changed or gone. -/
theorem exists_of_readings_ne (h : d.Leads dir top) (h' : d'.Leads dir top)
    (hne : d'.readings s dir ≠ d.readings s dir) : ∃ p l, s.Admits p ∧
      ¬(d.root.node? (top ++ p) = some (.leaf l) ↔ d'.root.node? (top ++ p) = some (.leaf l)) := by
  by_contra hno
  refine hne (h.readings_congr h' fun p l hadmits => ?_).symm
  by_contra hdiffer
  exact hno ⟨p, l, hadmits, hdiffer⟩

end Leads

end Disk

namespace Watcher

variable {α : Type} {w : Watcher} {s : Scope} {t t' : FileTree α} {place top names : List Text}

/-! ## Places that are reached -/

theorem firstMissing?_eq_some (h : firstMissing? t place = some names) :
    ∃ init n, names = init ++ [n] ∧ names <+: place ∧ t.node? names = none ∧ t.node? init ≠ none := by
  rw [firstMissing?, List.find?_map, Option.map_eq_some_iff] at h
  obtain ⟨i, hfind, rfl⟩ := h
  obtain ⟨hnone, hi, hbefore⟩ := List.find?_range_eq_some.mp hfind
  have hlt : i < place.length := List.mem_range.mp hi
  refine ⟨place.take i, place[i], List.take_succ_eq_append_getElem hlt, List.take_prefix _ _, ?_, ?_⟩
  · rw [FileTree.node?_eq_none_iff]
    exact Option.isNone_iff_eq_none.mp hnone
  · rw [Ne, FileTree.node?_eq_none_iff]
    cases i with
    | zero => nofun
    | succ j =>
      have hthere := hbefore j (Nat.lt_succ_self j)
      intro hmissing
      simp [hmissing] at hthere

theorem firstMissing?_eq_none (h : firstMissing? t place = none) : t.node? place ≠ none := by
  rw [firstMissing?, List.find?_map, Option.map_eq_none_iff, List.find?_eq_none] at h
  rw [Ne, FileTree.node?_eq_none_iff]
  by_cases hne : place = []
  · rw [hne]
    nofun
  · have hlast := h (place.length - 1) (List.mem_range.mpr (by
      have hpos := List.length_pos_iff.mpr hne
      omega))
    have hlen : place.length - 1 + 1 = place.length := by
      have hpos := List.length_pos_iff.mpr hne
      omega
    intro hmissing
    simp [hlen, hmissing] at hlast

theorem firstMissing?_of_there (h : t.node? place ≠ none) : firstMissing? t place = none := by
  cases hfirst : firstMissing? t place with
  | none => rfl
  | some first =>
    obtain ⟨-, -, -, hpre, hnone, -⟩ := firstMissing?_eq_some hfirst
    by_cases hsame : first = place
    · exact absurd (hsame ▸ hnone) h
    · rw [FileTree.node?_of_isPrefix h hpre hsame] at hnone
      cases hnone

/-- A place has been reached: the directories above it are there, no file having been above it, and what
was at the place already is still of its kind. -/
structure Reaches (t t' : FileTree α) (place : List Text) : Prop where
  off : ∀ q, ¬q <+: place → t'.node? q = t.node? q
  way : ∀ q, q <+: place → q ≠ place → t'.node? q = some .dir
  clear : ∀ q a, q <+: place → q ≠ place → t.node? q ≠ some (.leaf a)
  there : t'.node? place ≠ none
  dir : t.node? place = some .dir → t'.node? place = some .dir
  leaf : ∀ a, t.node? place = some (.leaf a) → ∃ b, t'.node? place = some (.leaf b)

/-- A place that is reached shows at the first place on the way to it that was missing, or at the place
itself. -/
theorem Reaches.grows (h : Reaches t t' place) : t.Grows t' ((firstMissing? t place).getD place) := by
  cases hfirst : firstMissing? t place with
  | none =>
    have hold := firstMissing?_eq_none hfirst
    have hbelow : ∀ q, place <+: q → q ≠ place → t'.node? q = t.node? q := fun q hpre hne =>
      h.off q fun hway => hne (hway.eq_of_length_le hpre.length_le)
    rw [Option.getD_none]
    refine ⟨h.there, fun q hpre => ?_, fun q hpre hq => ?_, fun q a hpre hq => ?_⟩
    · by_cases hway : q <+: place
      · have hne : q ≠ place := fun heq => hpre (heq ▸ List.prefix_rfl)
        rw [h.way q hway hne, FileTree.node?_of_isPrefix hold hway hne]
      · exact h.off q hway
    · by_cases hsame : q = place
      · subst hsame
        exact h.dir hq
      · rw [hbelow q hpre hsame, hq]
    · by_cases hsame : q = place
      · subst hsame
        exact h.leaf a hq
      · exact ⟨a, by rw [hbelow q hpre hsame, hq]⟩
  | some first =>
    obtain ⟨init, n, rfl, hfirst, hnone, hinit⟩ := firstMissing?_eq_some hfirst
    rw [Option.getD_some]
    have hmissing : ∀ q, init ++ [n] <+: q → t.node? q = none := by
      intro q hpre
      by_cases hsame : init ++ [n] = q
      · rw [← hsame, hnone]
      · exact FileTree.node?_eq_none_of_isPrefix (by rw [hnone]; nofun) hpre hsame
    refine ⟨?_, fun q hpre => ?_, fun q hpre hq => ?_, fun q a hpre hq => ?_⟩
    · by_cases hsame : init ++ [n] = place
      · rw [hsame]
        exact h.there
      · rw [h.way _ hfirst hsame]
        nofun
    · by_cases hway : q <+: place
      · have hne : q ≠ place := fun heq => hpre (heq ▸ hfirst)
        -- What lies on the way in front of the first missing place is a directory.
        have hfront : q <+: init := by
          have hor := List.prefix_or_prefix_of_prefix hway hfirst
          obtain rfl | hfront := List.prefix_concat_iff.mp (hor.resolve_right hpre)
          · exact absurd List.prefix_rfl hpre
          · exact hfront
        rw [h.way q hway hne]
        cases hold : t.node? q with
        | none =>
          by_cases hsame : q = init
          · exact absurd (hsame ▸ hold) hinit
          · rw [FileTree.node?_of_isPrefix hinit hfront hsame] at hold
            cases hold
        | some k =>
          cases k with
          | leaf a => exact absurd hold (h.clear q a hway hne)
          | dir => rfl
      · exact h.off q hway
    · rw [hmissing q hpre] at hq
      cases hq
    · rw [hmissing q hpre] at hq
      cases hq

theorem Reaches.above (h : Reaches t t' (top ++ names)) (hne : names ≠ []) :
    t'.node? top = some .dir :=
  FileTree.node?_of_append h.there hne

theorem reaches_of_made {d d' : Disk} (h : Disk.Plain.Made d d' place) :
    Reaches d.root d'.root place where
  off := fun q hoff => by rw [h.node?, if_neg hoff]
  way := fun q hway _ => by rw [h.node?, if_pos hway]
  clear := fun q l hway _ => h.clear q l hway
  there := by
    rw [h.node?, if_pos List.prefix_rfl]
    nofun
  dir := fun _ => by rw [h.node?, if_pos List.prefix_rfl]
  leaf := fun l hleaf => absurd hleaf (h.clear place l List.prefix_rfl)

theorem reaches_of_written {d d' : Disk} {content : Text} (h : Disk.Plain.Written d d' place content) :
    Reaches d.root d'.root place where
  off := fun q hoff => by
    have hne : q ≠ place := fun heq => hoff (heq ▸ List.prefix_rfl)
    rw [h.node?, if_neg hne, if_neg hoff]
  way := fun q hway hne => by rw [h.node?, if_neg hne, if_pos hway]
  clear := fun q l hway hne => h.clear q l (FileTree.prefix_dropLast hway hne)
  there := by
    rw [h.node?, if_pos rfl]
    nofun
  dir := fun hdir => absurd hdir h.not_dir
  leaf := fun _ _ => ⟨_, by rw [h.node?, if_pos rfl]⟩

/-- What was there already is reached. -/
theorem reaches_of_same {d d' : Disk} (h : Disk.Plain.Same d d') (hthere : d.root.node? place ≠ none) :
    Reaches d.root d'.root place where
  off := fun q _ => h q
  way := fun q hway hne => by rw [h q, FileTree.node?_of_isPrefix hthere hway hne]
  clear := fun q l hway hne hleaf => by
    rw [FileTree.node?_of_isPrefix hthere hway hne] at hleaf
    cases hleaf
  there := by rwa [h place]
  dir := fun hdir => by rwa [h place]
  leaf := fun l hleaf => ⟨l, by rwa [h place]⟩

/-- The first missing place on the way to a place below a directory lies below it too. -/
theorem exists_first {t : FileTree α} (htop : t.node? top = some .dir) (hne : names ≠ []) :
    ∃ first, first ≠ [] ∧ first <+: names ∧
      (firstMissing? t (top ++ names)).getD (top ++ names) = top ++ first := by
  cases hfirst : firstMissing? t (top ++ names) with
  | none => exact ⟨names, hne, List.prefix_rfl, rfl⟩
  | some place =>
    obtain ⟨init, n, rfl, hpre, hnone, -⟩ := firstMissing?_eq_some hfirst
    have hnot : ¬init ++ [n] <+: top := by
      intro habove
      by_cases hsame : init ++ [n] = top
      · rw [hsame, htop] at hnone
        cases hnone
      · rw [FileTree.node?_of_isPrefix (by rw [htop]; nofun) habove hsame] at hnone
        cases hnone
    obtain ⟨first, hfirst⟩ :=
      (List.prefix_or_prefix_of_prefix hpre (List.prefix_append top names)).resolve_left hnot
    refine ⟨first, ?_, ?_, hfirst.symm⟩
    · rintro rfl
      rw [List.append_nil] at hfirst
      exact hnot (hfirst ▸ List.prefix_rfl)
    · rw [← hfirst] at hpre
      exact (List.prefix_append_right_inj top).mp hpre

/-! ## What is written or made -/

/-- A watcher keeps up with a change: it attends to the disk afterwards, and it reports something if
something else is read then. -/
structure Keeps (s : Scope) (d d' : Disk) (dir : Text) (top : List Text) (v : Watcher × List Text) :
    Prop where
  attends : v.1.Attends s d' dir top
  reports : d'.readings s dir ≠ d.readings s dir → v.2 ≠ []

namespace Attends

variable {d d' : Disk} {dir p content : Text}

/-- Nothing has happened. -/
theorem keeps_same (h : w.Attends s d dir top) (h' : d'.Leads dir top) (hsame : Disk.Plain.Same d d') :
    Keeps s d d' dir top (w, []) where
  attends := ⟨h', h.inStep.scope, fun x => by
    rw [h.inStep.mem_iff]
    simp only [hsame _]⟩
  reports := fun hne => absurd (h.readings_congr h' fun q l _ => by rw [hsame _]).symm hne

/-- A place is reached below the directory under watch. -/
theorem keeps_written (h : w.Attends s d dir top) (h' : d'.Leads dir top) (hne : names ≠ [])
    (hreaches : Reaches d.root d'.root (top ++ names)) :
    Keeps s d d' dir top (w.written d.root d'.root (top ++ names)) := by
  obtain ⟨first, hnil, hpre, hfirst⟩ := exists_first h.there hne
  have hgrows := hreaches.grows
  rw [hfirst] at hgrows
  rw [written, hfirst]
  obtain ⟨hattends, hreported⟩ := h.appear h' hnil hgrows
  refine ⟨hattends, fun hother hempty => ?_⟩
  obtain ⟨q, l, hadmits, hdiffer⟩ := h.exists_of_readings_ne h' hother
  by_cases hway : top ++ q <+: top ++ names
  · by_cases hsame : q = names
    · -- The file itself: it is there now, and its path is reported.
      subst hsame
      have hthere : ∃ b, d'.root.node? (top ++ q) = some (.leaf b) := by
        by_cases hold : d.root.node? (top ++ q) = some (.leaf l)
        · exact hreaches.leaf l hold
        · by_contra hno
          exact hdiffer ⟨fun hleaf => absurd hleaf hold, fun hleaf => absurd ⟨l, hleaf⟩ hno⟩
      obtain ⟨b, hleaf⟩ := hthere
      have hmem := (hreported (Path.relative q)).mpr ⟨q, b, hpre, hleaf, hadmits, rfl⟩
      rw [hempty] at hmem
      cases hmem
    · have hother : top ++ q ≠ top ++ names := fun heq => hsame (List.append_cancel_left heq)
      refine hdiffer ⟨fun hleaf => absurd hleaf (hreaches.clear _ l hway hother), fun hleaf => ?_⟩
      rw [hreaches.way _ hway hother] at hleaf
      cases hleaf
  · exact hdiffer (by rw [hreaches.off _ hway])

/-- **A watcher keeps up with what is written.** -/
theorem write (h : w.Attends s d dir top) (hp : d.Below dir p) (content : Text) :
    Keeps s d (d.apply (.write p content)) dir top (w.notice d (.write p content)) := by
  obtain ⟨names, hne, hnames, hpath⟩ := h.exists_below hp
  simp only [notice, hpath]
  obtain ⟨hplain, hdirectory, hsame, hwhy⟩ | hwritten := h.plain.write_cases hnames hpath content
  · have h' := h.next hplain hdirectory (by rw [hsame, h.there])
    obtain ⟨hdir, hok⟩ | ⟨-, f, hf⟩ := hplain.place_cases hnames true
    · rw [hsame] at hdir
      have hthere := hwhy.resolve_left (not_not_intro hdir)
      rw [hok]
      exact h.keeps_written h' hne (reaches_of_same hsame (by rw [hthere]; nofun))
    · rw [hf]
      exact h.keeps_same h' hsame
  · have hreaches := reaches_of_written hwritten
    have h' := h.next hwritten.plain hwritten.directory (hreaches.above hne)
    obtain ⟨-, hok⟩ | ⟨hno, -⟩ := hwritten.plain.place_cases hnames true
    · rw [hok]
      exact h.keeps_written h' hne hreaches
    · exact absurd (FileTree.node?_dropLast hreaches.there) hno

/-- **A watcher keeps up with directories that are made.** -/
theorem makeDir (h : w.Attends s d dir top) (hp : d.Below dir p) :
    Keeps s d (d.apply (.makeDir p)) dir top (w.notice d (.makeDir p)) := by
  obtain ⟨names, hne, hnames, hpath⟩ := h.exists_below hp
  simp only [notice, hpath]
  obtain ⟨hsame, q, l, hpre, hleaf⟩ | hmade := h.plain.makeDir_cases hnames hpath
  · rw [hsame]
    have hsilent : (d.place true (Path.rooted (top ++ names))).toOption.bind (firstMissing? d.root) =
        none := by
      obtain ⟨hdir, hok⟩ | ⟨-, f, hf⟩ := h.plain.place_cases hnames true
      · rw [hok]
        refine firstMissing?_of_there fun hnone => ?_
        have hne' : q ≠ top ++ names := by
          rintro rfl
          rw [hnone] at hleaf
          cases hleaf
        exact (h.plain.made_self hdir).clear q l (FileTree.prefix_dropLast hpre hne') hleaf
      · rw [hf]
        rfl
    rw [hsilent]
    exact h.keeps_same h.toLeads fun _ => rfl
  · have hreaches := reaches_of_made hmade
    have h' := h.next hmade.plain hmade.directory (hreaches.above hne)
    obtain ⟨-, hok⟩ | ⟨hno, -⟩ := hmade.plain.place_cases hnames true
    · rw [hok]
      simp only [Except.toOption, Option.bind_some]
      cases hfirst : firstMissing? d.root (top ++ names) with
      | none =>
        -- All the directories were there before.
        have hthere : d.root.node? (top ++ names) = some .dir := by
          cases hold : d.root.node? (top ++ names) with
          | none => exact absurd hold (firstMissing?_eq_none hfirst)
          | some k =>
            cases k with
            | leaf l => exact absurd hold (hmade.clear _ l List.prefix_rfl)
            | dir => rfl
        exact h.keeps_same h' fun q =>
          (hmade.node? q).trans ((h.plain.made_self hthere).node? q).symm
      | some place =>
        have hkeeps := h.keeps_written h' hne hreaches
        rw [written, hfirst] at hkeeps
        exact hkeeps
    · exact absurd (FileTree.node?_dropLast hreaches.there) hno

end Attends

end Watcher

end StubDecl
