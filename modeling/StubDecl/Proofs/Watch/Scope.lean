import StubDecl.Proofs.File.Readings
import StubDecl.Watch.Basic

/-!
# What is watched is what is walked

A watcher is in step with a tree if it has a watch on exactly the directories that a walk enters, each
under its own path (`Watcher.InStep`). It starts so (`Watcher.inStep_start`), and what appears in the
tree keeps it so and is reported as far as the walk lists it (`Watcher.InStep.noticed`,
`Watcher.InStep.appear`). On a disk this is said of the directory that a path means
(`Watcher.Attends.appear`).
-/

namespace StubDecl

namespace FileTree

/-- Something has come at or below a place, and nothing has gone or become another kind of entry. -/
structure Grows {α : Type} (t t' : FileTree α) (place : List Text) : Prop where
  there : t'.node? place ≠ none
  elsewhere : ∀ q, ¬place <+: q → t'.node? q = t.node? q
  dirs : ∀ q, place <+: q → t.node? q = some .dir → t'.node? q = some .dir
  leaves : ∀ q a, place <+: q → t.node? q = some (.leaf a) → ∃ b, t'.node? q = some (.leaf b)

end FileTree

/-! ## Watches -/

namespace Watch

variable {α : Type} {s : Scope} {t : FileTree α} {root here names : List Text} {n : Text}

/-- The watch on the directory that names lead to, under its own path. -/
def on (root names : List Text) : Watch := { place := root ++ names, name := Path.relative names }

theorem on_inj {names' : List Text} (h : (on root names).place = (on root names').place) :
    names = names' :=
  List.append_cancel_left h

theorem entry_on (h : ∀ m ∈ names, m.IsOrdinary) (n : Text) :
    (on root names).entry n = Path.relative (names ++ [n]) := by
  rw [Path.relative_concat]
  by_cases hne : names = []
  · subst hne
    rfl
  · have hname : (on root names).name ≠ [] := Path.relative_ne_nil hne h
    rw [entry, List.isEmpty_eq_false_iff.mpr hname, Path.base_eq hne]
    rfl

theorem own_on (hne : names ≠ []) (h : ∀ m ∈ names, m.IsOrdinary) :
    (on root names).own = Path.relative names := by
  have hname : (on root names).name ≠ [] := Path.relative_ne_nil hne h
  rw [own, List.isEmpty_eq_false_iff.mpr hname]
  rfl

theorem below_cons (s : Scope) (place : List Text) (base n : Text) (e : FileTree.Entry α)
    (t : FileTree α) : below s place base (.cons n e t) =
      (match e with
        | .leaf _ => []
        | .dir es =>
          if s.enters (base ++ n) then
            { place := place ++ [n], name := base ++ n } ::
              below s (place ++ [n]) (base ++ n ++ "/") es
          else []) ++ below s place base t := by
  cases e with
  | leaf a => rfl
  | dir es =>
    simp only [FileTree.cons, below]
    split <;> rfl

/-- The watches below a directory are those on the directories that the walk enters there. -/
theorem mem_below_iff (h : t.Proper) (root here : List Text) {x : Watch} :
    x ∈ below s (root ++ here) (Path.base here) t ↔
      ∃ p, p ≠ [] ∧ t.node? p = some .dir ∧ s.EntersFrom here p ∧ x = on root (here ++ p) := by
  induction t using FileTree.cons_induction generalizing here with
  | nil =>
    constructor
    · nofun
    · rintro ⟨p, hne, hp, -⟩
      obtain ⟨m, p, rfl⟩ := List.exists_cons_of_ne_nil hne
      rw [FileTree.node?_cons] at hp
      cases hp
  | cons n e t ihe iht =>
    obtain ⟨he, -, -, ht⟩ := FileTree.proper_cons.mp h
    rw [below_cons, List.mem_append, iht ht here]
    -- A directory of the whole tree is the first entry, lies in it, or lies in the others.
    have hcut : (∃ p, p ≠ [] ∧ (FileTree.cons n e t).node? p = some .dir ∧ s.EntersFrom here p ∧
          x = on root (here ++ p)) ↔
        (∃ q, e.node? q = some .dir ∧ s.EntersFrom here (n :: q) ∧ x = on root (here ++ n :: q)) ∨
          ∃ p, p ≠ [] ∧ t.node? p = some .dir ∧ s.EntersFrom here p ∧ x = on root (here ++ p) := by
      constructor
      · rintro ⟨p, hne, hp, hway, rfl⟩
        obtain ⟨m, p, rfl⟩ := List.exists_cons_of_ne_nil hne
        obtain ⟨rfl, hq⟩ | hq := (FileTree.node?_cons_eq_some h).mp hp
        · exact .inl ⟨p, hq, hway, rfl⟩
        · exact .inr ⟨_, hne, hq, hway, rfl⟩
      · rintro (⟨q, hq, hway, rfl⟩ | ⟨p, hne, hp, hway, rfl⟩)
        · exact ⟨n :: q, List.cons_ne_nil n q, (FileTree.node?_cons_eq_some h).mpr (.inl ⟨rfl, hq⟩),
            hway, rfl⟩
        · obtain ⟨m, p, rfl⟩ := List.exists_cons_of_ne_nil hne
          exact ⟨_, hne, (FileTree.node?_cons_eq_some h).mpr (.inr hp), hway, rfl⟩
    rw [hcut]
    refine or_congr ?_ Iff.rfl
    cases e with
    | leaf a =>
      constructor
      · nofun
      · rintro ⟨q, hq, -⟩
        cases q with
        | nil => cases hq
        | cons m q => cases hq
    | dir es =>
      have hbase : Path.base here ++ n ++ "/" = Path.base (here ++ [n]) := (Path.base_concat here n).symm
      have hplace : root ++ here ++ [n] = root ++ (here ++ [n]) := List.append_assoc _ _ _
      have hself : ({ place := root ++ (here ++ [n]), name := Path.base here ++ n } : Watch) =
          on root (here ++ [n]) := by
        rw [on, Path.relative_concat]
      simp only
      rw [hbase, hplace, hself, ← Path.relative_concat]
      constructor
      · intro hmem
        split at hmem
        · next henter =>
          obtain rfl | hmem := List.mem_cons.mp hmem
          · exact ⟨[], rfl, Scope.entersFrom_cons.mpr ⟨henter, s.entersFrom_nil _⟩, rfl⟩
          · obtain ⟨p, -, hp, hway, rfl⟩ := (ihe es rfl he (here ++ [n])).mp hmem
            exact ⟨p, hp, Scope.entersFrom_cons.mpr ⟨henter, hway⟩, by rw [List.append_assoc]; rfl⟩
        · cases hmem
      · rintro ⟨q, hq, hway, rfl⟩
        obtain ⟨henter, hway⟩ := Scope.entersFrom_cons.mp hway
        rw [if_pos henter]
        by_cases hnil : q = []
        · subst hnil
          exact List.mem_cons_self
        · refine List.mem_cons_of_mem _ ((ihe es rfl he (here ++ [n])).mpr ⟨q, hnil, hq, hway, ?_⟩)
          rw [List.append_assoc]
          rfl

end Watch

/-! ## Watchers in step with a tree -/

namespace Watcher

variable {α : Type} {w : Watcher} {s : Scope} {t t' : FileTree α} {root names : List Text} {n : Text}

/-- The watcher has a watch on exactly the directories that a walk enters, each under its own path. -/
structure InStep (w : Watcher) (s : Scope) (t : FileTree α) (root : List Text) : Prop where
  scope : w.scope = s
  mem_iff : ∀ x, x ∈ w.watches ↔
    ∃ names, t.node? (root ++ names) = some .dir ∧ s.Enters names ∧ x = Watch.on root names

/-- **A watcher starts in step.** -/
theorem inStep_start (s : Scope) (ht : t.Proper) (hroot : t.node? root = some .dir) :
    (start s t root).InStep s t root := by
  obtain ⟨es, hget⟩ := FileTree.node?_eq_dir_iff.mp hroot
  have hbelow : ∀ p, t.node? (root ++ p) = es.node? p := by
    intro p
    rw [FileTree.node?_append, hget]
    rfl
  refine ⟨rfl, fun x => ?_⟩
  have hwatches : (start s t root).watches =
      Watch.on root [] :: Watch.below s (root ++ []) (Path.base []) es := by
    simp only [start, hget, List.append_nil]
    simp [Watch.on, Path.base, Path.relative, Text.joinWith]
  rw [hwatches, List.mem_cons, Watch.mem_below_iff (ht.getAt? hget) root []]
  constructor
  · rintro (rfl | ⟨p, -, hp, hway, rfl⟩)
    · exact ⟨[], by rw [List.append_nil]; exact hroot, s.entersFrom_nil [], rfl⟩
    · exact ⟨p, by rw [hbelow]; exact hp, hway, rfl⟩
  · rintro ⟨p, hp, hway, rfl⟩
    by_cases hne : p = []
    · exact .inl (by rw [hne])
    · rw [hbelow] at hp
      exact .inr ⟨p, hne, hp, hway, rfl⟩

namespace InStep

/-- The watch on a directory that the walk enters. -/
theorem at?_eq (h : w.InStep s t root) (hdir : t.node? (root ++ names) = some .dir)
    (hway : s.Enters names) : w.at? (root ++ names) = some (Watch.on root names) := by
  have hmem : Watch.on root names ∈ w.watches := (h.mem_iff _).mpr ⟨names, hdir, hway, rfl⟩
  rw [at?]
  cases hfind : w.watches.find? fun x => x.place = root ++ names with
  | none => exact absurd (decide_eq_true rfl) (List.find?_eq_none.mp hfind _ hmem)
  | some x =>
    have hfound := List.find?_some hfind
    obtain ⟨names', -, -, rfl⟩ := (h.mem_iff x).mp (List.mem_of_find?_eq_some hfind)
    rw [Watch.on_inj (of_decide_eq_true hfound)]

/-- There is no watch on anything else. -/
theorem at?_eq_none (h : w.InStep s t root)
    (hno : ¬(t.node? (root ++ names) = some .dir ∧ s.Enters names)) : w.at? (root ++ names) = none := by
  rw [at?, List.find?_eq_none]
  intro x hx hplace
  obtain ⟨names', hdir, hway, rfl⟩ := (h.mem_iff x).mp hx
  have heq : names' = names := Watch.on_inj (of_decide_eq_true hplace)
  exact hno ⟨heq ▸ hdir, heq ▸ hway⟩

end InStep

theorem holder?_concat (w : Watcher) (place : List Text) (n : Text) :
    w.holder? (place ++ [n]) = (w.at? place).map fun x => (x, n) := by
  rw [holder?, List.getLast?_concat, List.dropLast_concat]
  cases w.at? place <;> rfl

/-! ## More watches -/

/-- A watch on a directory under its own path does not drive out another one. -/
theorem mem_foldl_add {xs : List Watch}
    (hw : ∀ y ∈ w.watches, ∃ names, (∀ m ∈ names, m.IsOrdinary) ∧ y = Watch.on root names)
    (hxs : ∀ x ∈ xs, ∃ names, (∀ m ∈ names, m.IsOrdinary) ∧ x = Watch.on root names) {y : Watch} :
    y ∈ (xs.foldl add w).watches ↔ y ∈ w.watches ∨ y ∈ xs := by
  induction xs generalizing w with
  | nil => simp
  | cons x xs ih =>
    obtain ⟨hx, hrest⟩ := List.forall_mem_cons.mp hxs
    have hadd : ∀ y, y ∈ (w.add x).watches ↔ y ∈ w.watches ∨ y = x := by
      obtain ⟨names, hnames, rfl⟩ := hx
      have hall : w.watches.filter (fun y => y.name ≠ (Watch.on root names).name ||
          y.place = (Watch.on root names).place) = w.watches := by
        refine List.filter_eq_self.mpr fun y hy => ?_
        obtain ⟨names', hnames', rfl⟩ := hw y hy
        by_cases hname : (Watch.on root names').name = (Watch.on root names).name
        · have heq : names' = names := Path.relative_inj hnames' hnames hname
          simp [heq]
        · simp [hname]
      intro y
      simp only [add, hall]
      split
      · next hany =>
        obtain ⟨z, hz, hplace⟩ := List.any_eq_true.mp hany
        obtain ⟨names', -, rfl⟩ := hw z hz
        have heq : names' = names := Watch.on_inj (of_decide_eq_true hplace)
        refine ⟨.inl, fun hor => hor.elim id fun hy => ?_⟩
        rw [hy, ← heq]
        exact hz
      · rw [List.mem_append, List.mem_singleton]
    rw [List.foldl_cons, ih (fun y hy => ?_) hrest, hadd, List.mem_cons, or_assoc]
    obtain hy | rfl := (hadd y).mp hy
    · exact hw y hy
    · exact hx

@[simp] theorem scope_foldl_add (xs : List Watch) (w : Watcher) : (xs.foldl add w).scope = w.scope := by
  induction xs generalizing w with
  | nil => rfl
  | cons x xs ih =>
    rw [List.foldl_cons, ih]
    rfl

/-! ## What appears -/

theorem appear_eq_of_holder?_none {place : List Text} (h : w.holder? place = none) (t' : FileTree α) :
    w.appear t' place = (w, []) := by
  simp only [appear, h]

theorem appear_eq_of_dir {place : List Text} {x : Watch} {es : FileTree α}
    (h : w.holder? place = some (x, n)) (hx : x.moved = false) (hget : t'.getAt? place = some (.dir es)) :
    w.appear t' place =
      if w.scope.enters (x.entry n) then
        (({ place := place, name := x.entry n } ::
            Watch.below w.scope place (x.entry n ++ "/") es).foldl add w,
          (w.scope.select (x.entry n ++ "/") es).map (·.1))
      else (w, []) := by
  simp only [appear, h, hx, Bool.false_eq_true, if_false, hget]

theorem appear_eq_of_leaf {place : List Text} {x : Watch} {a : α}
    (h : w.holder? place = some (x, n)) (hx : x.moved = false) (hget : t'.getAt? place = some (.leaf a)) :
    w.appear t' place = (w, w.selected [x.entry n]) := by
  simp only [appear, h, hx, Bool.false_eq_true, if_false, hget]

/-- What becomes of a watcher when something has appeared under a name in a directory: the directories at
and below it that the walk enters have come under watch, and the files at and below it that the walk
lists have been reported. -/
structure Noticed (s : Scope) (t' : FileTree α) (root names : List Text) (n : Text) (w : Watcher)
    (v : Watcher × List Text) : Prop where
  scope : v.1.scope = s
  mem_iff : ∀ x, x ∈ v.1.watches ↔ x ∈ w.watches ∨
    ∃ p, t'.node? (root ++ (names ++ n :: p)) = some .dir ∧ s.Enters (names ++ n :: p) ∧
      x = Watch.on root (names ++ n :: p)
  reported_iff : ∀ r, r ∈ v.2 ↔
    ∃ p a, t'.node? (root ++ (names ++ n :: p)) = some (.leaf a) ∧ s.Admits (names ++ n :: p) ∧
      r = Path.relative (names ++ n :: p)

/-- What a walk does not come to is not noticed. -/
theorem noticed_of_not_enters (hscope : w.scope = s) (t' : FileTree α) (root : List Text)
    (hdirs : ∀ p, ¬s.Enters (names ++ n :: p)) (hfiles : ∀ p a,
      t'.node? (root ++ (names ++ n :: p)) = some (.leaf a) → ¬s.Enters (names ++ n :: p).dropLast) :
    Noticed s t' root names n w (w, []) := by
  refine ⟨hscope, fun x => ⟨.inl, fun hor => hor.elim id ?_⟩, fun r => ⟨nofun, ?_⟩⟩
  · rintro ⟨p, -, hway, -⟩
    exact absurd hway (hdirs p)
  · rintro ⟨p, a, hleaf, hadmits, -⟩
    exact absurd hadmits.2 (hfiles p a hleaf)

theorem noticed_leaf (hscope : w.scope = s) (hway : s.Enters names) {a : α}
    (hleaf : t'.node? (root ++ (names ++ [n])) = some (.leaf a)) :
    Noticed s t' root names n w (w, w.selected [Path.relative (names ++ [n])]) := by
  have hend : ∀ p, p ≠ [] → t'.node? (root ++ (names ++ n :: p)) = none := by
    intro p hne
    refine FileTree.node?_eq_none_of_isPrefix (by rw [hleaf]; nofun) ?_ (by simpa using Ne.symm hne)
    exact ⟨p, by simp⟩
  refine ⟨hscope, fun x => ⟨.inl, fun hor => hor.elim id ?_⟩, fun r => ?_⟩
  · rintro ⟨p, hdir, -⟩
    by_cases hne : p = []
    · rw [hne, hleaf] at hdir
      cases hdir
    · rw [hend p hne] at hdir
      cases hdir
  · simp only [selected, hscope, List.mem_filter, List.mem_singleton]
    constructor
    · rintro ⟨rfl, hsel⟩
      refine ⟨[], a, hleaf, ⟨hsel, ?_⟩, rfl⟩
      rw [List.dropLast_concat]
      exact hway
    · rintro ⟨p, b, hp, hadmits, rfl⟩
      by_cases hne : p = []
      · rw [hne] at hadmits ⊢
        exact ⟨rfl, hadmits.1⟩
      · rw [hend p hne] at hp
        cases hp

/-- The way into a directory goes through the directory. -/
theorem enters_cons_iff (hway : s.Enters names) (p : List Text) : s.Enters (names ++ n :: p) ↔
    s.enters (Path.relative (names ++ [n])) = true ∧ s.EntersFrom (names ++ [n]) p := by
  rw [Scope.Enters, Scope.entersFrom_append, Scope.entersFrom_cons, List.nil_append]
  exact and_iff_right hway

theorem enters_dropLast_cons_iff (hway : s.Enters names) {p : List Text} (hne : p ≠ []) :
    s.Enters (names ++ n :: p).dropLast ↔
      s.enters (Path.relative (names ++ [n])) = true ∧ s.EntersFrom (names ++ [n]) p.dropLast := by
  rw [List.dropLast_append_of_ne_nil (List.cons_ne_nil n p), List.dropLast_cons_of_ne_nil hne,
    enters_cons_iff hway]

theorem noticed_dir (hscope : w.scope = s) (hway : s.Enters names)
    (henter : s.enters (Path.relative (names ++ [n])) = true) (ht' : t'.Proper) (hord : t'.Ordinary)
    (hw : ∀ y ∈ w.watches, ∃ names, (∀ m ∈ names, m.IsOrdinary) ∧ y = Watch.on root names)
    {es : FileTree α} (hget : t'.getAt? (root ++ (names ++ [n])) = some (.dir es)) :
    Noticed s t' root names n w
      ((Watch.on root (names ++ [n]) ::
          Watch.below s (root ++ (names ++ [n])) (Path.base (names ++ [n])) es).foldl add w,
        (s.select (Path.base (names ++ [n])) es).map (·.1)) := by
  have hassoc : ∀ p, names ++ [n] ++ p = names ++ n :: p := fun p => by simp
  have hbelow : ∀ p, t'.node? (root ++ (names ++ n :: p)) = es.node? p := by
    intro p
    rw [← hassoc, ← List.append_assoc, FileTree.node?_append, hget]
    rfl
  have hmem : ∀ x, x ∈ Watch.on root (names ++ [n]) ::
      Watch.below s (root ++ (names ++ [n])) (Path.base (names ++ [n])) es ↔
        ∃ p, t'.node? (root ++ (names ++ n :: p)) = some .dir ∧ s.Enters (names ++ n :: p) ∧
          x = Watch.on root (names ++ n :: p) := by
    intro x
    rw [List.mem_cons, Watch.mem_below_iff (ht'.getAt? hget)]
    simp only [enters_cons_iff hway, hbelow, hassoc]
    constructor
    · rintro (rfl | ⟨p, -, hdir, hrest, rfl⟩)
      · exact ⟨[], rfl, ⟨henter, s.entersFrom_nil _⟩, rfl⟩
      · exact ⟨p, hdir, ⟨henter, hrest⟩, rfl⟩
    · rintro ⟨p, hdir, ⟨-, hrest⟩, rfl⟩
      by_cases hne : p = []
      · exact .inl (by rw [hne])
      · exact .inr ⟨p, hne, hdir, hrest, rfl⟩
  have hnew : ∀ y ∈ Watch.on root (names ++ [n]) ::
      Watch.below s (root ++ (names ++ [n])) (Path.base (names ++ [n])) es,
        ∃ names, (∀ m ∈ names, m.IsOrdinary) ∧ y = Watch.on root names := by
    intro y hy
    obtain ⟨p, hdir, -, rfl⟩ := (hmem y).mp hy
    refine ⟨names ++ n :: p, fun m hm => hord _ ?_ m (List.mem_append_right root hm), rfl⟩
    rw [hdir]
    nofun
  refine ⟨by rw [scope_foldl_add, hscope], fun x => ?_, fun r => ?_⟩
  · rw [mem_foldl_add hw hnew, hmem]
  · rw [List.mem_map]
    constructor
    · rintro ⟨⟨rel, a⟩, hsel, rfl⟩
      obtain ⟨p, hleaf, rfl, hsel, hrest⟩ := (Scope.mem_select_iff (ht'.getAt? hget) _).mp hsel
      have hne : p ≠ [] := by
        rintro rfl
        cases hleaf
      rw [hassoc] at hsel
      exact ⟨p, a, by rw [hbelow]; exact hleaf,
        ⟨hsel, (enters_dropLast_cons_iff hway hne).mpr ⟨henter, hrest⟩⟩, by rw [hassoc]⟩
    · rintro ⟨p, a, hleaf, ⟨hsel, hrest⟩, rfl⟩
      rw [hbelow] at hleaf
      have hne : p ≠ [] := by
        rintro rfl
        cases hleaf
      refine ⟨(Path.relative (names ++ n :: p), a), ?_, rfl⟩
      exact (Scope.mem_select_iff (ht'.getAt? hget) _).mpr
        ⟨p, hleaf, by rw [hassoc], hsel, ((enters_dropLast_cons_iff hway hne).mp hrest).2⟩

/-- The watches of a watcher in step are on directories with ordinary names. -/
theorem InStep.ordinary (h : w.InStep s t root) (ht : t.Ordinary) :
    ∀ y ∈ w.watches, ∃ names, (∀ m ∈ names, m.IsOrdinary) ∧ y = Watch.on root names := by
  intro y hy
  obtain ⟨names, hdir, -, rfl⟩ := (h.mem_iff y).mp hy
  exact ⟨names, fun m hm => ht _ (by rw [hdir]; nofun) m (List.mem_append_right root hm), rfl⟩

/-- **What appears is noticed** as far as the walk comes to it. -/
theorem InStep.noticed (h : w.InStep s t root) (ht : t.Ordinary) (ht' : t'.Proper) (hord : t'.Ordinary)
    (habove : t'.node? (root ++ names) = t.node? (root ++ names))
    (hthere : t'.node? (root ++ (names ++ [n])) ≠ none) :
    Noticed s t' root names n w (w.appear t' (root ++ (names ++ [n]))) := by
  have hnames : ∀ m ∈ names ++ [n], m.IsOrdinary := fun m hm =>
    hord _ hthere m (List.mem_append_right root hm)
  have hup : t'.node? (root ++ names) = some .dir := by
    refine FileTree.node?_of_append ?_ (List.cons_ne_nil n [])
    rwa [List.append_assoc]
  have hholder : w.holder? (root ++ (names ++ [n])) = (w.at? (root ++ names)).map fun x => (x, n) := by
    rw [← List.append_assoc, holder?_concat]
  by_cases hway : s.Enters names
  · -- The directory that it appears in is under watch.
    rw [h.at?_eq (habove ▸ hup) hway] at hholder
    have hentry : (Watch.on root names).entry n = Path.relative (names ++ [n]) :=
      Watch.entry_on (fun m hm => hnames m (List.mem_append_left [n] hm)) n
    cases hget : t'.getAt? (root ++ (names ++ [n])) with
    | none => exact absurd (FileTree.node?_eq_none_iff.mpr hget) hthere
    | some e =>
      cases e with
      | leaf a =>
        rw [appear_eq_of_leaf hholder rfl hget, hentry]
        exact noticed_leaf h.scope hway (FileTree.node?_eq_leaf_iff.mpr hget)
      | dir es =>
        rw [appear_eq_of_dir hholder rfl hget, hentry, h.scope, ← Path.base_eq (by simp)]
        split
        · next henter => exact noticed_dir h.scope hway henter ht' hord (h.ordinary ht) hget
        · next henter =>
          refine noticed_of_not_enters h.scope t' root (fun p hrest => ?_) fun p a hleaf hrest => ?_
          · exact henter ((enters_cons_iff hway p).mp hrest).1
          · have hne : p ≠ [] := by
              rintro rfl
              rw [FileTree.node?_eq_dir_iff.mpr ⟨es, hget⟩] at hleaf
              cases hleaf
            exact henter ((enters_dropLast_cons_iff hway hne).mp hrest).1
  · rw [h.at?_eq_none fun hboth => hway hboth.2] at hholder
    rw [appear_eq_of_holder?_none hholder]
    refine noticed_of_not_enters h.scope t' root (fun p hrest => ?_) fun p a _ hrest => ?_
    · exact hway (Scope.entersFrom_append.mp hrest).1
    · rw [List.dropLast_append_of_ne_nil (List.cons_ne_nil n p)] at hrest
      exact hway (Scope.entersFrom_append.mp hrest).1

/-- **What appears keeps a watcher in step.** -/
theorem InStep.appear (h : w.InStep s t root)
    (hgrows : t.Grows t' (root ++ (names ++ [n]))) {v : Watcher × List Text}
    (hnoticed : Noticed s t' root names n w v) : v.1.InStep s t' root := by
  refine ⟨hnoticed.scope, fun x => ?_⟩
  rw [hnoticed.mem_iff, h.mem_iff]
  constructor
  · rintro (⟨names', hdir, hway, rfl⟩ | ⟨p, hdir, hway, rfl⟩)
    · refine ⟨names', ?_, hway, rfl⟩
      by_cases hpre : root ++ (names ++ [n]) <+: root ++ names'
      · exact hgrows.dirs _ hpre hdir
      · rw [hgrows.elsewhere _ hpre]
        exact hdir
    · exact ⟨names ++ n :: p, hdir, hway, rfl⟩
  · rintro ⟨names', hdir, hway, rfl⟩
    by_cases hpre : root ++ (names ++ [n]) <+: root ++ names'
    · obtain ⟨p, rfl⟩ := (List.prefix_append_right_inj root).mp hpre
      exact .inr ⟨p, by simpa using hdir, by simpa using hway, by simp⟩
    · rw [hgrows.elsewhere _ hpre] at hdir
      exact .inl ⟨names', hdir, hway, rfl⟩

/-! ## Watchers and walks on a disk -/

/-- A watcher of the directory that a path means, in step with a plain disk. -/
structure Attends (w : Watcher) (s : Scope) (d : Disk) (dir : Text) (top : List Text) : Prop
    extends d.Leads dir top where
  inStep : w.InStep s d.root top

/-- **A watcher attends from its start on.** -/
theorem attends_start (s : Scope) {d : Disk} (hd : d.Plain) {dir : Text} {t : FileTree Leaf}
    (hdir : d.lstat (d.absolute dir) = .ok (.dir t)) :
    (start s d.root (d.ownPlace (d.absolute dir))).Attends s d dir (d.ownPlace (d.absolute dir)) :=
  ⟨hd.leads hdir, inStep_start s hd.root.proper (hd.leads hdir).there⟩

/-- **What appears is reported** as far as the walk lists it, and the watcher keeps attending. -/
theorem Attends.appear {d d' : Disk} {dir : Text} {top : List Text} (h : w.Attends s d dir top)
    (h' : d'.Leads dir top) (hne : names ≠ []) (hgrows : d.root.Grows d'.root (top ++ names)) :
    let v := w.appear d'.root (top ++ names)
    v.1.Attends s d' dir top ∧ ∀ r, r ∈ v.2 ↔ ∃ p l, names <+: p ∧
      d'.root.node? (top ++ p) = some (.leaf l) ∧ s.Admits p ∧ r = Path.relative p := by
  intro v
  obtain ⟨init, n, rfl⟩ := (List.eq_nil_or_concat' names).resolve_left hne
  have habove : d'.root.node? (top ++ init) = d.root.node? (top ++ init) := by
    refine hgrows.elsewhere _ ?_
    rw [← List.append_assoc]
    exact FileTree.not_append_isPrefix (List.cons_ne_nil n [])
  have hnoticed := h.inStep.noticed h.plain.root.ordinary h'.plain.root.proper h'.plain.root.ordinary
    habove hgrows.there
  refine ⟨⟨h', h.inStep.appear hgrows hnoticed⟩, fun r => ?_⟩
  rw [hnoticed.reported_iff]
  constructor
  · rintro ⟨p, l, hleaf, hadmits, rfl⟩
    exact ⟨init ++ n :: p, l, ⟨p, by simp⟩, hleaf, hadmits, rfl⟩
  · rintro ⟨p, l, ⟨q, rfl⟩, hleaf, hadmits, rfl⟩
    rw [List.append_assoc, List.singleton_append] at hleaf hadmits ⊢
    exact ⟨q, l, hleaf, hadmits, rfl⟩

end Watcher

end StubDecl
