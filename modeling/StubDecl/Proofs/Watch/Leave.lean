import StubDecl.Proofs.Watch.Reach

/-!
# What is removed or moved

A watcher keeps up with what is removed (`Watcher.Attends.remove`). After a move it goes on attending only
if no directory under watch has moved along with one that holds it (`Watcher.Attends.rename`): such a
directory keeps its old path. And of a directory that moves only its own path is reported where it was,
not what it held, so that a directory which moves to where none of its files is selected hides them
(`Watcher.Attends.rename_eq_nil_iff`).
-/

namespace StubDecl

namespace Disk

/-- A directory that moves holds no directories that the walk enters. -/
def Change.MovesAlone (d : Disk) (s : Scope) (dir : Text) : Change → Prop
  | .rename p q => ∀ es source target r,
      d.moveOf? p q = some (.dir es, d.ownPlace (d.absolute dir) ++ source, target) → r ≠ [] →
        es.node? r = some .dir → ¬s.Enters (source ++ r)
  | _ => True

/-- A directory moves whose own path is not selected, to where none of the files in it is. -/
def Change.Hides (d : Disk) (s : Scope) (dir : Text) : Change → Prop
  | .rename p q => ∃ es source target, d.moveOf? p q = some (.dir es,
        d.ownPlace (d.absolute dir) ++ source, d.ownPlace (d.absolute dir) ++ target) ∧
      s.selects (Path.relative source) = false ∧
        ∀ r l, es.node? r = some (.leaf l) → ¬s.Admits (target ++ r)
  | _ => False

end Disk

namespace Watcher

variable {α : Type} {w : Watcher} {s : Scope} {t t' : FileTree α} {place top names : List Text}

/-! ## What is removed -/

/-- With the directories that are gone, their watches go. -/
theorem InStep.drop {v : Watcher} {gone : List Text → Prop} (h : w.InStep s t top)
    (hscope : v.scope = w.scope) (hwatches : ∀ x, x ∈ v.watches ↔ x ∈ w.watches ∧ ¬gone x.place)
    (hgone : ∀ q, gone q → t'.node? q = none) (hkept : ∀ q, ¬gone q → t'.node? q = t.node? q) :
    v.InStep s t' top := by
  refine ⟨hscope.trans h.scope, fun x => ?_⟩
  rw [hwatches, h.mem_iff]
  constructor
  · rintro ⟨⟨names, hdir, hway, rfl⟩, hstays⟩
    exact ⟨names, (hkept (top ++ names) hstays).trans hdir, hway, rfl⟩
  · rintro ⟨names, hdir, hway, rfl⟩
    have hstays : ¬gone (top ++ names) := by
      intro hgoes
      rw [hgone _ hgoes] at hdir
      cases hdir
    exact ⟨⟨names, by rw [← hkept _ hstays, hdir], hway, rfl⟩, hstays⟩

/-- The old path of something is reported with, if a directory under watch holds it. -/
def oldName (w : Watcher) (place : List Text) : List Text :=
  (w.holder? place).toList.map fun (x, n) => x.entry n

/-- What lies in a directory is among the contents of its watch. -/
theorem mem_contents (ht : t.Ordinary) {a : α} {n : Text}
    (hleaf : t.node? (top ++ (names ++ [n])) = some (.leaf a)) :
    Path.relative (names ++ [n]) ∈ contents t (Watch.on top names) := by
  rw [← List.append_assoc, FileTree.node?_append] at hleaf
  obtain ⟨e, hget, hin⟩ := Option.bind_eq_some_iff.mp hleaf
  cases e with
  | leaf b => cases hin
  | dir es =>
    rw [FileTree.node?_dir, FileTree.node?_cons] at hin
    obtain ⟨e, hentry, -⟩ := Option.bind_eq_some_iff.mp hin
    have hplace : (Watch.on top names).place = top ++ names := rfl
    simp only [contents, hplace, hget]
    refine List.mem_map.mpr ⟨n, FileTree.mem_names_of_get? hentry, ?_⟩
    refine Watch.entry_on (fun m hm => ht (top ++ names) ?_ m (List.mem_append_right top hm)) n
    rw [Ne, FileTree.node?_eq_none_iff, hget]
    nofun

/-- An old path is reported with as far as the walk comes to it. -/
theorem InStep.mem_oldName_iff (h : w.InStep s t top) (ht : t.Ordinary) (hne : names ≠ [])
    (hthere : t.node? (top ++ names) ≠ none) {r : Text} :
    r ∈ w.oldName (top ++ names) ↔ r = Path.relative names ∧ s.Enters names.dropLast := by
  obtain ⟨init, n, rfl⟩ := (List.eq_nil_or_concat' names).resolve_left hne
  rw [List.dropLast_concat, oldName, ← List.append_assoc, holder?_concat]
  by_cases hway : s.Enters init
  · have hdir : t.node? (top ++ init) = some .dir := by
      refine FileTree.node?_of_append ?_ (List.cons_ne_nil n [])
      rwa [List.append_assoc]
    rw [h.at?_eq hdir hway]
    simp only [Option.map_some, Option.toList_some, List.map_cons, List.map_nil, List.mem_singleton]
    rw [Watch.entry_on fun m hm => ht _ hthere m (by simp [hm])]
    exact (and_iff_left hway).symm
  · rw [h.at?_eq_none fun hboth => hway hboth.2]
    exact ⟨nofun, fun hboth => absurd hboth.2 hway⟩

namespace Attends

variable {d d' : Disk} {dir p content : Text}

/-- A listed file that is removed is reported: it was removed itself, or lay in a directory under watch
that was. -/
theorem mem_vanish (h : w.Attends s d dir top) (hne : names ≠ []) {q : List Text} {l : Leaf}
    (hpre : names <+: q) (hleaf : d.root.node? (top ++ q) = some (.leaf l)) (hadmits : s.Admits q) :
    Path.relative q ∈ (w.vanish d.root (top ++ names)).2 := by
  refine List.mem_filter.mpr ⟨List.mem_append.mpr ?_, by rw [h.inStep.scope]; exact hadmits.1⟩
  by_cases hsame : names = q
  · subst hsame
    refine .inl ?_
    change Path.relative names ∈ w.oldName (top ++ names)
    have hthere : d.root.node? (top ++ names) ≠ none := by
      rw [hleaf]
      nofun
    exact (h.inStep.mem_oldName_iff h.plain.root.ordinary hne hthere).mpr ⟨rfl, hadmits.2⟩
  · obtain ⟨init, n, rfl, hdir⟩ := h.exists_concat hleaf
    have hin : names <+: init := by
      have hdrop := FileTree.prefix_dropLast hpre hsame
      rwa [List.dropLast_concat] at hdrop
    have hway : s.Enters init := by
      have hway := hadmits.2
      rwa [List.dropLast_concat] at hway
    refine .inr (List.mem_flatMap.mpr ⟨Watch.on top init, List.mem_filter.mpr ⟨?_, ?_⟩, ?_⟩)
    · exact (h.inStep.mem_iff _).mpr ⟨init, hdir, hway, rfl⟩
    · exact List.isPrefixOf_iff_prefix.mpr ((List.prefix_append_right_inj top).mpr hin)
    · exact List.mem_cons_of_mem _ (mem_contents h.plain.root.ordinary hleaf)

/-- **A watcher keeps up with what is removed.** -/
theorem remove (h : w.Attends s d dir top) (hp : d.Below dir p) :
    Keeps s d (d.apply (.remove p)) dir top (w.notice d (.remove p)) := by
  obtain ⟨names, hne, hnames, hpath⟩ := h.exists_below hp
  obtain ⟨hplain, hdirectory, hcases⟩ := h.plain.remove_cases hnames hpath
  simp only [notice, hpath]
  obtain ⟨hnone, hsame⟩ | ⟨hthere, herased⟩ := hcases
  · have h' := h.next hplain hdirectory (by rw [hsame, h.there])
    have hfault : ∃ f, d.lstat (Path.rooted (top ++ names)) = .error f := by
      cases hstat : d.lstat (Path.rooted (top ++ names)) with
      | error f => exact ⟨f, rfl⟩
      | ok e =>
        rw [h.plain.lstat_eq_ok_iff hnames, FileTree.node?_eq_none_iff.mp hnone] at hstat
        cases hstat
    obtain ⟨f, hf⟩ := hfault
    rw [hf]
    exact h.keeps_same h' hsame
  · have hgone : ∀ q, top ++ names <+: q → (d.apply (.remove p)).root.node? q = none := by
      rintro q ⟨r, rfl⟩
      rw [herased]
      exact FileTree.node?_eraseAt_append (by simp [hne]) h.plain.root.proper r
    have hkept : ∀ q, ¬top ++ names <+: q → (d.apply (.remove p)).root.node? q = d.root.node? q := by
      intro q hpre
      rw [herased]
      exact FileTree.node?_eraseAt_elsewhere hpre h.plain.root.proper
    have h' := h.next hplain hdirectory
      (by rw [hkept top (FileTree.not_append_isPrefix hne), h.there])
    obtain ⟨e, hget⟩ := Option.ne_none_iff_exists'.mp fun hnone =>
      hthere (FileTree.node?_eq_none_iff.mpr hnone)
    rw [(h.plain.lstat_eq_ok_iff hnames).mpr hget,
      h.plain.ownPlace_eq hnames (FileTree.node?_dropLast hthere)]
    refine ⟨⟨h', h.inStep.drop rfl (fun x => ?_) hgone hkept⟩, fun hother hempty => ?_⟩
    · rw [vanish, List.mem_filter, Bool.not_eq_true', ← Bool.not_eq_true, List.isPrefixOf_iff_prefix]
    · obtain ⟨q, l, hadmits, hdiffer⟩ := h.exists_of_readings_ne h' hother
      have hpre : top ++ names <+: top ++ q := by
        by_contra hpre
        exact hdiffer (by rw [hkept _ hpre])
      have hleaf : d.root.node? (top ++ q) = some (.leaf l) := by
        by_contra hold
        refine hdiffer ⟨fun hleaf => absurd hleaf hold, fun hleaf => ?_⟩
        rw [hgone _ hpre] at hleaf
        cases hleaf
      have hmem := h.mem_vanish hne ((List.prefix_append_right_inj top).mp hpre) hleaf hadmits
      rw [hempty] at hmem
      cases hmem

end Attends

/-! ## What is moved -/

/-- The watcher without the watches at and below two places. -/
def leave (w : Watcher) (source target : List Text) : Watcher :=
  { w with watches := w.watches.filter fun x =>
      !(source.isPrefixOf x.place || target.isPrefixOf x.place) }

/-- The watcher after a move, before what has moved is noticed at its new place. -/
def followed (w : Watcher) (source target : List Text) : Watcher :=
  { w with watches := w.watches.filterMap (follow source target) }

section Follow

variable {source target : List Text}

theorem mem_leave_iff {x : Watch} : x ∈ (w.leave source target).watches ↔
    x ∈ w.watches ∧ ¬(source <+: x.place ∨ target <+: x.place) := by
  simp only [leave, List.mem_filter, Bool.not_eq_true', ← Bool.not_eq_true, Bool.or_eq_true,
    List.isPrefixOf_iff_prefix]

theorem follow_eq_self {x : Watch} (hsource : ¬source <+: x.place) (htarget : ¬target <+: x.place) :
    follow source target x = some x := by
  have hne : x.place ≠ source := fun heq => hsource (heq ▸ List.prefix_rfl)
  rw [follow, if_neg (by simp [htarget, hne]), if_neg (by simpa using hsource)]

/-- A watch comes to no place but one below the new place. -/
theorem prefix_of_follow {x y : Watch} (h : follow source target x = some y) :
    y = x ∧ ¬source <+: x.place ∧ ¬target <+: x.place ∨ source <+: x.place ∧ target <+: y.place := by
  rw [follow] at h
  split at h
  · cases h
  · next hno =>
    simp only [Bool.or_eq_true, List.isPrefixOf_iff_prefix, decide_eq_true_eq, not_or] at hno
    split at h
    · next hpre =>
      cases h
      exact .inr ⟨List.isPrefixOf_iff_prefix.mp hpre, List.prefix_append _ _⟩
    · next hpre =>
      cases h
      exact .inl ⟨rfl, fun hsource => hpre (List.isPrefixOf_iff_prefix.mpr hsource), hno.1⟩

/-- Elsewhere a move leaves the watches as they are. -/
theorem at?_followed (hsource : ¬source <+: place) (htarget : ¬target <+: place) :
    (w.followed source target).at? place = (w.leave source target).at? place := by
  have hself : ∀ x : Watch, x.place = place → follow source target x = some x := by
    rintro x rfl
    exact follow_eq_self hsource htarget
  have hfollowed : (fun x => (follow source target x).any fun y => decide (y.place = place)) =
      fun x => decide (x.place = place) := by
    funext x
    by_cases hx : x.place = place
    · rw [hself x hx]
      rfl
    · cases hfollow : follow source target x with
      | none => simp [hx]
      | some y =>
        obtain ⟨rfl, -⟩ | ⟨-, hbelow⟩ := prefix_of_follow hfollow
        · rfl
        · have hy : y.place ≠ place := fun heq => htarget (heq ▸ hbelow)
          simp [hx, hy]
  have hleft : (fun x : Watch =>
      decide ((!(source.isPrefixOf x.place || target.isPrefixOf x.place)) = true ∧
        decide (x.place = place) = true)) = fun x => decide (x.place = place) := by
    funext x
    by_cases hx : x.place = place
    · rw [← List.isPrefixOf_iff_prefix, Bool.not_eq_true] at hsource htarget
      simp [hx, hsource, htarget]
    · simp [hx]
  simp only [followed, leave, at?]
  rw [List.find?_filterMap, List.find?_filter, hfollowed, hleft]
  cases hfind : w.watches.find? fun x => decide (x.place = place) with
  | none => rfl
  | some x =>
    have hfound := List.find?_some hfind
    exact hself x (of_decide_eq_true hfound)

theorem followed_eq_leave (h : ∀ x ∈ w.watches, source <+: x.place → x.place = source) :
    w.followed source target = w.leave source target := by
  rw [followed, leave, ← List.filterMap_eq_filter]
  congr 1
  refine List.filterMap_congr fun x hx => ?_
  by_cases hsource : source <+: x.place
  · have hplace := h x hx hsource
    simp [follow, Option.guard, hplace]
  · by_cases htarget : target <+: x.place
    · simp [follow, Option.guard, htarget]
    · rw [follow_eq_self hsource htarget]
      simp [Option.guard, hsource, htarget]

end Follow

theorem appear_snd_congr {v : Watcher} (hscope : v.scope = w.scope)
    (hholder : v.holder? place = w.holder? place) (t : FileTree α) :
    (v.appear t place).2 = (w.appear t place).2 := by
  simp only [appear, hholder, hscope, selected]
  cases w.holder? place with
  | none => rfl
  | some xn =>
    obtain ⟨x, n⟩ := xn
    simp only
    split
    · split <;> rfl
    · rfl

namespace Attends

variable {d d' : Disk} {dir : Text} {e : FileTree.Entry Leaf} {source target : List Text}

/-- Once what moves has left its old place, and what it replaces is gone, the watcher without the watches
there is in step, and what has moved appears. -/
theorem leave (h : w.Attends s d dir top) (hm : Disk.Plain.Moved d d' e (top ++ source) (top ++ target))
    (hsource : source ≠ []) (htarget : target ≠ []) :
    ∃ d₁ : Disk, (w.leave (top ++ source) (top ++ target)).Attends s d₁ dir top ∧
      d₁.root.Grows d'.root (top ++ target) := by
  let t₁ := (d.root.eraseAt (top ++ source)).eraseAt (top ++ target)
  have hplain := h.plain.root.eraseAt (top ++ source)
  have hgone : ∀ q, top ++ source <+: q ∨ top ++ target <+: q → t₁.node? q = none := by
    intro q hq
    by_cases hpre : top ++ target <+: q
    · obtain ⟨r, rfl⟩ := hpre
      exact FileTree.node?_eraseAt_append (by simp [htarget]) hplain.proper r
    · obtain ⟨r, rfl⟩ := hq.resolve_right hpre
      exact (FileTree.node?_eraseAt_elsewhere hpre hplain.proper).trans
        (FileTree.node?_eraseAt_append (by simp [hsource]) h.plain.root.proper r)
  have hkept : ∀ q, ¬(top ++ source <+: q ∨ top ++ target <+: q) → t₁.node? q = d.root.node? q := by
    intro q hq
    obtain ⟨hnot, hnot'⟩ := not_or.mp hq
    exact (FileTree.node?_eraseAt_elsewhere hnot' hplain.proper).trans
      (FileTree.node?_eraseAt_elsewhere hnot h.plain.root.proper)
  have hthere : t₁.node? top = some .dir := by
    rw [hkept top (not_or.mpr ⟨FileTree.not_append_isPrefix hsource,
      FileTree.not_append_isPrefix htarget⟩), h.there]
  refine ⟨{ d with root := t₁ }, ⟨⟨⟨hplain.eraseAt _, h.plain.directory⟩, h.ordinary, h.path, hthere⟩,
    h.inStep.drop rfl (fun x => mem_leave_iff) hgone hkept⟩, ?_, fun q hpre => ?_, fun q hpre hq => ?_,
    fun q l hpre hq => ?_⟩
  · have hnew := hm.node?_target h.plain []
    rw [List.append_nil, List.append_nil] at hnew
    rw [hnew, Ne, FileTree.node?_eq_none_iff, hm.entry]
    nofun
  · exact (hm.node?_elsewhere hpre).trans (FileTree.node?_eraseAt_elsewhere hpre hplain.proper).symm
  · rw [hgone q (.inr hpre)] at hq
    cases hq
  · rw [hgone q (.inr hpre)] at hq
    cases hq

theorem next_of_moved (h : w.Attends s d dir top)
    (hm : Disk.Plain.Moved d d' e (top ++ source) (top ++ target))
    (hsource : source ≠ []) (htarget : target ≠ []) : d'.Leads dir top := by
  refine h.next hm.plain hm.directory ?_
  rw [hm.node?_elsewhere (FileTree.not_append_isPrefix htarget),
    FileTree.node?_eraseAt_elsewhere (FileTree.not_append_isPrefix hsource) h.plain.root.proper, h.there]

/-- What is reported of a move: the old path of what has moved, and the files that the walk lists where it
has come to. -/
theorem mem_move_iff (h : w.Attends s d dir top)
    (hm : Disk.Plain.Moved d d' e (top ++ source) (top ++ target))
    (hsource : source ≠ []) (htarget : target ≠ []) {r : Text} :
    r ∈ (w.move d'.root (top ++ source) (top ++ target)).2 ↔
      s.Admits source ∧ r = Path.relative source ∨
      ∃ p l, target <+: p ∧ d'.root.node? (top ++ p) = some (.leaf l) ∧ s.Admits p ∧
        r = Path.relative p := by
  obtain ⟨d₁, hleave, hgrows⟩ := h.leave hm hsource htarget
  obtain ⟨-, hnew⟩ := hleave.appear (h.next_of_moved hm hsource htarget) htarget hgrows
  have hthere : d.root.node? (top ++ source) ≠ none := by
    rw [Ne, FileTree.node?_eq_none_iff, hm.entry]
    nofun
  -- What appears is noticed by the directory above, whose watch the move leaves as it is.
  have hholder : (w.followed (top ++ source) (top ++ target)).holder? (top ++ target) =
      (w.leave (top ++ source) (top ++ target)).holder? (top ++ target) := by
    have habove : ¬top ++ source <+: (top ++ target).dropLast := fun hpre =>
      hm.apart (hpre.trans (List.dropLast_prefix _))
    have hself : ¬top ++ target <+: (top ++ target).dropLast := by
      intro hpre
      have hlen := hpre.length_le
      rw [List.length_dropLast] at hlen
      exact hm.target_ne_nil (List.eq_nil_of_length_eq_zero (by omega))
    rw [holder?, holder?, at?_followed habove hself]
  have hscope : (w.followed (top ++ source) (top ++ target)).scope =
      (w.leave (top ++ source) (top ++ target)).scope := rfl
  have happear : ((w.followed (top ++ source) (top ++ target)).appear d'.root (top ++ target)).2 =
      ((w.leave (top ++ source) (top ++ target)).appear d'.root (top ++ target)).2 :=
    appear_snd_congr hscope hholder _
  have hmove : (w.move d'.root (top ++ source) (top ++ target)).2 =
      w.selected (w.oldName (top ++ source) ++ (w.at? (top ++ source)).toList.map Watch.own) ++
        ((w.leave (top ++ source) (top ++ target)).appear d'.root (top ++ target)).2 := by
    rw [← happear]
    rfl
  rw [hmove, List.mem_append, hnew]
  refine or_congr ?_ Iff.rfl
  have hown : r ∈ (w.at? (top ++ source)).toList.map Watch.own →
      r = Path.relative source ∧ s.Enters source.dropLast := by
    intro hr
    by_cases hboth : d.root.node? (top ++ source) = some .dir ∧ s.Enters source
    · rw [h.inStep.at?_eq hboth.1 hboth.2] at hr
      have hnames := h.ordinary_below hthere
      refine ⟨(List.mem_singleton.mp hr).trans (Watch.own_on hsource hnames), ?_⟩
      exact hboth.2.of_isPrefix (List.dropLast_prefix source)
    · rw [h.inStep.at?_eq_none hboth] at hr
      cases hr
  rw [selected, List.mem_filter, List.mem_append,
    h.inStep.mem_oldName_iff h.plain.root.ordinary hsource hthere, h.inStep.scope]
  constructor
  · rintro ⟨hor, hsel⟩
    obtain ⟨rfl, hway⟩ := hor.elim id hown
    exact ⟨⟨hsel, hway⟩, rfl⟩
  · rintro ⟨hadmits, rfl⟩
    exact ⟨.inl ⟨rfl, hadmits.2⟩, hadmits.1⟩

/-- What a move changes for the walk: a file that it lists where something has come to, or one that it
listed where that has been. -/
theorem exists_of_moved (h : w.Attends s d dir top)
    (hm : Disk.Plain.Moved d d' e (top ++ source) (top ++ target))
    (hsource : source ≠ []) (htarget : target ≠ []) (hother : d'.readings s dir ≠ d.readings s dir) :
    ∃ p l, s.Admits p ∧ (target <+: p ∧ d'.root.node? (top ++ p) = some (.leaf l) ∨
      source <+: p ∧ d.root.node? (top ++ p) = some (.leaf l)) := by
  obtain ⟨p, l, hadmits, hdiffer⟩ := h.exists_of_readings_ne (h.next_of_moved hm hsource htarget) hother
  by_cases hat : target <+: p
  · have hpre := (List.prefix_append_right_inj top).mpr hat
    by_cases hold : d.root.node? (top ++ p) = some (.leaf l)
    · obtain ⟨b, hleaf⟩ := hm.exists_leaf h.plain hpre hold
      exact ⟨p, b, hadmits, .inl ⟨hat, hleaf⟩⟩
    · by_contra hno
      exact hdiffer ⟨fun hleaf => absurd hleaf hold,
        fun hleaf => absurd ⟨p, l, hadmits, .inl ⟨hat, hleaf⟩⟩ hno⟩
  · have hpre : ¬top ++ target <+: top ++ p := fun hpre =>
      hat ((List.prefix_append_right_inj top).mp hpre)
    by_cases hfrom : source <+: p
    · have hgone := hm.node?_source h.plain hpre ((List.prefix_append_right_inj top).mpr hfrom)
      rw [hgone] at hdiffer
      refine ⟨p, l, hadmits, .inr ⟨hfrom, ?_⟩⟩
      by_contra hold
      exact hdiffer ⟨fun hleaf => absurd hleaf hold, nofun⟩
    · have hpre' : ¬top ++ source <+: top ++ p := fun hpre =>
        hfrom ((List.prefix_append_right_inj top).mp hpre)
      exact absurd (by rw [hm.node?_apart h.plain hpre hpre']) hdiffer

/-- **A watcher goes on attending after a move**, unless directories under watch have moved along. -/
theorem rename {p q : Text} (h : w.Attends s d dir top) (hc : (Disk.Change.rename p q).Below d dir)
    (halone : (Disk.Change.rename p q).MovesAlone d s dir) :
    (w.notice d (.rename p q)).1.Attends s (d.apply (.rename p q)) dir top := by
  obtain ⟨source, hsource, hnames, hp⟩ := h.exists_below hc.1
  obtain ⟨target, htarget, hnames', hq⟩ := h.exists_below hc.2
  simp only [notice]
  obtain ⟨hnone, hsame⟩ | ⟨e, hmove, hm⟩ := h.plain.rename_cases hnames hnames' hp hq
  · rw [hnone, hsame]
    exact h
  · rw [hmove]
    -- The watch on what has moved is the only one that goes.
    have hleave : w.followed (top ++ source) (top ++ target) =
        w.leave (top ++ source) (top ++ target) := by
      refine followed_eq_leave fun x hx hpre => ?_
      obtain ⟨names, hdir, hway, rfl⟩ := (h.inStep.mem_iff x).mp hx
      obtain ⟨r, rfl⟩ := (List.prefix_append_right_inj top).mp hpre
      by_contra hne
      have hr : r ≠ [] := by
        rintro rfl
        exact hne (by simp [Watch.on])
      rw [← List.append_assoc, FileTree.node?_append, hm.entry] at hdir
      cases e with
      | leaf l =>
        obtain ⟨n, r, rfl⟩ := List.exists_cons_of_ne_nil hr
        cases hdir
      | dir es =>
        refine halone es source (top ++ target) r ?_ hr hdir hway
        rw [h.ownPlace_eq, hmove]
    obtain ⟨d₁, hattends, hgrows⟩ := h.leave hm hsource htarget
    have hnext := (hattends.appear (h.next_of_moved hm hsource htarget) htarget hgrows).1
    rw [← hleave] at hnext
    exact hnext

/-- **What is missed of a move**: a directory that hides its files, and nothing else that matters. -/
theorem rename_eq_nil_iff {p q : Text} (h : w.Attends s d dir top)
    (hc : (Disk.Change.rename p q).Below d dir)
    (hother : (d.apply (.rename p q)).readings s dir ≠ d.readings s dir) :
    (w.notice d (.rename p q)).2 = [] ↔ (Disk.Change.rename p q).Hides d s dir := by
  obtain ⟨source, hsource, hnames, hp⟩ := h.exists_below hc.1
  obtain ⟨target, htarget, hnames', hq⟩ := h.exists_below hc.2
  obtain ⟨-, hsame⟩ | ⟨e, hmove, hm⟩ := h.plain.rename_cases hnames hnames' hp hq
  · exact absurd (by rw [hsame]) hother
  have hreported : ∀ r, r ∈ (w.notice d (.rename p q)).2 ↔ s.Admits source ∧ r = Path.relative source ∨
      ∃ p' l, target <+: p' ∧ (d.apply (.rename p q)).root.node? (top ++ p') = some (.leaf l) ∧
        s.Admits p' ∧ r = Path.relative p' := by
    intro r
    simp only [notice, hmove]
    exact h.mem_move_iff hm hsource htarget
  constructor
  · intro hempty
    simp only [hempty, List.not_mem_nil, false_iff, not_or] at hreported
    have hstays : ¬s.Admits source := fun hadmits => (hreported _).1 ⟨hadmits, rfl⟩
    have hcomes : ∀ p' l, target <+: p' →
        (d.apply (.rename p q)).root.node? (top ++ p') = some (.leaf l) → ¬s.Admits p' :=
      fun p' l hpre hleaf hadmits => (hreported _).2 ⟨p', l, hpre, hleaf, hadmits, rfl⟩
    obtain ⟨p', l, hadmits, ⟨hpre, hleaf⟩ | ⟨⟨r, rfl⟩, hleaf⟩⟩ :=
      h.exists_of_moved hm hsource htarget hother
    · exact absurd hadmits (hcomes p' l hpre hleaf)
    · have hr : r ≠ [] := by
        rintro rfl
        exact hstays (List.append_nil source ▸ hadmits)
      have hway : s.Enters source.dropLast := by
        have hup := hadmits.2
        rw [List.dropLast_append_of_ne_nil hr] at hup
        exact hup.of_isPrefix ((List.dropLast_prefix source).trans (List.prefix_append _ _))
      cases e with
      | leaf k =>
        obtain ⟨n, r, rfl⟩ := List.exists_cons_of_ne_nil hr
        rw [← List.append_assoc, FileTree.node?_append, hm.entry] at hleaf
        cases hleaf
      | dir es =>
        refine ⟨es, source, target, by rw [h.ownPlace_eq, hmove], ?_, fun r' l' hin => ?_⟩
        · rw [← Bool.not_eq_true]
          exact fun hsel => hstays ⟨hsel, hway⟩
        · refine hcomes (target ++ r') l' (List.prefix_append _ _) ?_
          rw [← List.append_assoc, hm.node?_target h.plain, FileTree.node?_append, hm.entry]
          exact hin
  · rintro ⟨es, source', target', hmove', hsel, hnone⟩
    rw [h.ownPlace_eq, hmove, Option.some.injEq, Prod.mk.injEq, Prod.mk.injEq] at hmove'
    obtain ⟨rfl, hs, ht⟩ := hmove'
    obtain rfl : source = source' := List.append_cancel_left hs
    obtain rfl : target = target' := List.append_cancel_left ht
    refine List.eq_nil_iff_forall_not_mem.mpr fun r hr => ?_
    obtain ⟨hadmits, -⟩ | ⟨p', l, ⟨r', rfl⟩, hleaf, hadmits, -⟩ := (hreported r).mp hr
    · rw [hadmits.1] at hsel
      cases hsel
    · refine hnone r' l ?_ hadmits
      rw [← List.append_assoc, hm.node?_target h.plain, FileTree.node?_append, hm.entry] at hleaf
      exact hleaf

end Attends

end Watcher

end StubDecl
