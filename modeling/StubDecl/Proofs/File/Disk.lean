import Mathlib.Data.List.Nodup
import StubDecl.File.Output
import StubDecl.Proofs.Text.Lines
import StubDecl.Proofs.Text.Order

/-!
# Well-formed disks

The names in a directory have no slash in them and are in order, so that no name occurs twice
(`FileTree.Proper`). Changes from outside and writing a file keep a disk so (`Disk.Proper.apply`,
`Disk.Proper.withLeaf`), and on such a disk no file to convert is listed twice
(`Disk.Proper.nodup_sources`).
-/

namespace StubDecl

/-- What can be the name of an entry: a text without a slash. -/
def Text.IsName (n : Text) : Prop := 0x2f ∉ n

namespace FileTree

variable {α : Type}

/-! ## Trees entry by entry -/

theorem cons_induction {P : FileTree α → Prop} (nil : P nil)
    (cons : ∀ n e t, (∀ es, e = .dir es → P es) → P t → P (cons n e t)) (t : FileTree α) : P t := by
  induction t with
  | nil => exact nil
  | leaf n a rest ih => exact cons n (.leaf a) rest (fun es h => nomatch h) ih
  | dir n es rest ihes ih =>
    refine cons n (.dir es) rest (fun es' h => ?_) ih
    cases h
    exact ihes

variable {t : FileTree α} {n m : Text} {e e' : Entry α}

@[simp] theorem names_cons : (cons n e t).names = n :: t.names := by cases e <;> rfl

theorem get?_cons : (cons m e t).get? n = if m = n then some e else t.get? n := by cases e <;> rfl

theorem erase_cons : (cons m e t).erase n = if m = n then t else cons m e (t.erase n) := by
  cases e <;> rfl

theorem set_cons : (cons m e' t).set n e =
    if m = n then cons n e t
    else if Text.le n m then cons n e (cons m e' t)
    else cons m e' (t.set n e) := by
  cases e' <;> rfl

theorem mem_names_of_set (h : m ∈ (t.set n e).names) : m = n ∨ m ∈ t.names := by
  induction t using cons_induction with
  | nil => simpa [set, names] using h
  | cons k e' t _ ih =>
    rw [set_cons] at h
    split at h
    · rw [names_cons, List.mem_cons] at h
      exact h.imp_right fun hm => by simp [hm]
    · split at h
      · rwa [names_cons, List.mem_cons] at h
      · rw [names_cons, List.mem_cons] at h
        obtain rfl | h := h
        · exact .inr (by simp)
        · exact (ih h).imp_right fun hm => by simp [hm]

theorem mem_names_of_erase (h : m ∈ (t.erase n).names) : m ∈ t.names := by
  induction t using cons_induction with
  | nil => exact h
  | cons k e t _ ih =>
    rw [erase_cons] at h
    rw [names_cons, List.mem_cons]
    split at h
    · exact .inr h
    · rw [names_cons, List.mem_cons] at h
      exact h.imp_right ih

/-! ## Names in order -/

/-- In the tree and in all directories below, entries have names, and the names increase. -/
def Proper : FileTree α → Prop
  | nil => True
  | leaf n _ rest => n.IsName ∧ (∀ m ∈ rest.names, n.Precedes m) ∧ rest.Proper
  | dir n es rest => es.Proper ∧ n.IsName ∧ (∀ m ∈ rest.names, n.Precedes m) ∧ rest.Proper

/-- A leaf, or a directory that is proper. -/
def Entry.Proper : Entry α → Prop
  | .leaf _ => True
  | .dir es => es.Proper

theorem proper_cons : (cons n e t).Proper ↔
    e.Proper ∧ n.IsName ∧ (∀ m ∈ t.names, n.Precedes m) ∧ t.Proper := by
  cases e with
  | leaf a => exact (iff_of_eq (true_and _)).symm
  | dir es => exact Iff.rfl

theorem Proper.isName (h : t.Proper) (hn : n ∈ t.names) : n.IsName := by
  induction t using cons_induction with
  | nil => cases hn
  | cons k e t _ ih =>
    obtain ⟨-, hk, -, ht⟩ := proper_cons.mp h
    rw [names_cons, List.mem_cons] at hn
    obtain rfl | hn := hn
    · exact hk
    · exact ih ht hn

theorem Proper.set (h : t.Proper) (hn : n.IsName) (he : e.Proper) : (t.set n e).Proper := by
  induction t using cons_induction with
  | nil => exact proper_cons.mpr ⟨he, hn, nofun, trivial⟩
  | cons m e' t _ ih =>
    obtain ⟨he', hm, hfirst, ht⟩ := proper_cons.mp h
    rw [set_cons]
    split
    · next hmn =>
      subst hmn
      exact proper_cons.mpr ⟨he, hn, hfirst, ht⟩
    · next hmn =>
      split
      · next hle =>
        have hpre : n.Precedes m := ⟨hle, Ne.symm hmn⟩
        refine proper_cons.mpr ⟨he, hn, fun k hk => ?_, h⟩
        rw [names_cons, List.mem_cons] at hk
        obtain rfl | hk := hk
        · exact hpre
        · exact hpre.trans (hfirst k hk)
      · next hle =>
        refine proper_cons.mpr ⟨he', hm, fun k hk => ?_, ih ht⟩
        obtain rfl | hk := mem_names_of_set hk
        · exact Text.precedes_of_not_le hle
        · exact hfirst k hk

theorem Proper.erase (h : t.Proper) (n : Text) : (t.erase n).Proper := by
  induction t using cons_induction with
  | nil => exact h
  | cons m e t _ ih =>
    obtain ⟨he, hm, hfirst, ht⟩ := proper_cons.mp h
    rw [erase_cons]
    split
    · exact ht
    · exact proper_cons.mpr ⟨he, hm, fun k hk => hfirst k (mem_names_of_erase hk), ih ht⟩

theorem Proper.get? (h : t.Proper) (hget : t.get? n = some e) : n.IsName ∧ e.Proper := by
  induction t using cons_induction with
  | nil => cases hget
  | cons m e' t _ ih =>
    obtain ⟨he, hm, -, ht⟩ := proper_cons.mp h
    rw [get?_cons] at hget
    split at hget
    · next hmn =>
      cases hget
      exact ⟨hmn ▸ hm, he⟩
    · exact ih ht hget

/-! ## Along a path of names -/

theorem Proper.getAt? (h : t.Proper) {path : List Text} (hget : t.getAt? path = some e) :
    e.Proper := by
  fun_induction FileTree.getAt? t path with
  | case1 t =>
    cases hget
    exact h
  | case2 t n => exact (h.get? hget).2
  | case3 t n ns _ es hes ih => exact ih (h.get? hes).2 hget
  | case4 => cases hget

theorem Proper.setAt (h : t.Proper) {path : List Text} (hpath : ∀ n ∈ path, n.IsName)
    (he : e.Proper) : (t.setAt path e).Proper := by
  fun_induction FileTree.setAt t path e with
  | case1 t => exact h
  | case2 t n => exact h.set (hpath n (by simp)) he
  | case3 t n ns _ es hes ih =>
    obtain ⟨hn, hns⟩ := List.forall_mem_cons.mp hpath
    exact h.set hn (ih (h.get? hes).2 hns)
  | case4 t => exact h

theorem Proper.eraseAt (h : t.Proper) (path : List Text) : (t.eraseAt path).Proper := by
  fun_induction FileTree.eraseAt t path with
  | case1 t => exact h
  | case2 t n => exact h.erase n
  | case3 t n ns _ es hes ih => exact h.set (h.get? hes).1 (ih (h.get? hes).2)
  | case4 t => exact h

end FileTree

/-! ## Selected files -/

/-- What comes before the first slash is the same in texts that are the same. -/
theorem Text.IsName.eq_of_append_eq {n m r r' : Text} (hn : n.IsName) (hm : m.IsName)
    (hr : ∀ b ∈ r.head?, b = 0x2f) (hr' : ∀ b ∈ r'.head?, b = 0x2f) (h : n ++ r = m ++ r') :
    n = m := by
  have hcut : ∀ {n r : Text}, n.IsName → (∀ b ∈ r.head?, b = 0x2f) →
      (n ++ r).takeWhile (· ≠ 0x2f) = n := by
    intro n r hn hr
    refine takeWhile_append_stop (fun b hb => ?_) (fun b hb => ?_)
    · exact decide_eq_true fun h => hn (h ▸ hb)
    · exact decide_eq_false (not_not_intro (hr b hb))
  rw [← hcut hn hr, h, hcut hm hr']

namespace Scope

variable {α : Type} {s : Scope} {t : FileTree α} {base q : Text}

theorem select_cons (s : Scope) (base n : Text) (e : FileTree.Entry α) (t : FileTree α) :
    s.select base (.cons n e t) =
      (match e with
        | .leaf a => if s.selects (base ++ n) then [(base ++ n, a)] else []
        | .dir es => if s.enters (base ++ n) then s.select (base ++ n ++ "/") es else []) ++
      s.select base t := by
  cases e <;> simp only [FileTree.cons, select] <;> split <;> rfl

/-- A selected path goes through an entry of the tree. -/
theorem exists_of_mem_select (h : q ∈ (s.select base t).map (·.1)) :
    ∃ n ∈ t.names, ∃ r, q = base ++ (n ++ r) ∧ ∀ b ∈ r.head?, b = 0x2f := by
  induction t using FileTree.cons_induction generalizing base with
  | nil => cases h
  | cons n e t ihe iht =>
    rw [select_cons, List.map_append, List.mem_append] at h
    obtain h | h := h
    · refine ⟨n, by simp, ?_⟩
      cases e with
      | leaf a =>
        refine ⟨[], ?_, nofun⟩
        simp only at h
        split at h <;> simp_all
      | dir es =>
        simp only at h
        split at h
        · obtain ⟨m, -, r, rfl, -⟩ := ihe es rfl h
          exact ⟨"/" ++ (m ++ r), by simp only [List.append_assoc], by rintro b ⟨⟩; rfl⟩
        · cases h
    · obtain ⟨m, hm, hrest⟩ := iht h
      exact ⟨m, by simp [hm], hrest⟩

/-- No path is selected twice. -/
theorem nodup_select (s : Scope) (base : Text) (h : t.Proper) :
    ((s.select base t).map (·.1)).Nodup := by
  induction t using FileTree.cons_induction generalizing base with
  | nil => exact List.nodup_nil
  | cons n e t ihe iht =>
    obtain ⟨he, hn, hfirst, ht⟩ := FileTree.proper_cons.mp h
    rw [select_cons, List.map_append, List.nodup_append]
    refine ⟨?_, iht base ht, ?_⟩
    · cases e with
      | leaf a =>
        simp only
        split <;> simp
      | dir es =>
        simp only
        split
        · exact ihe es rfl _ he
        · exact List.nodup_nil
    · rintro q hq q' hq' rfl
      have hself : q ∈ (s.select base (.cons n e .nil)).map (·.1) := by
        rw [select_cons, select, List.append_nil]
        exact hq
      obtain ⟨n', hn', r, hqr, hr⟩ := exists_of_mem_select hself
      obtain ⟨m, hm, r', hqr', hr'⟩ := exists_of_mem_select hq'
      obtain rfl : n' = n := by simpa [FileTree.names] using hn'
      have hsame : n' ++ r = m ++ r' := List.append_cancel_left (hqr.symm.trans hqr')
      exact (hfirst m hm).2 (hn.eq_of_append_eq (ht.isName hm) hr hr' hsame)

end Scope

/-! ## Disks -/

namespace Disk

/-- A disk whose directories have names in order. -/
def Proper (d : Disk) : Prop := d.root.Proper

theorem proper_empty : Proper {} := trivial

theorem isName_of_mem_steps {p n : Text} (h : n ∈ steps p) : n.IsName := by
  have hpiece : ∀ {m}, m ∈ (p.splitOn 0x2f).filter (fun c => !c.isEmpty) → m.IsName :=
    fun hm => Text.notMem_of_mem_splitOn (List.mem_of_mem_filter hm)
  simp only [steps] at h
  split at h
  · rw [List.mem_append, List.mem_singleton] at h
    obtain h | rfl := h
    · exact hpiece h
    · intro hdot
      revert hdot
      decide
  · exact hpiece h

/-- Following names gives names. -/
theorem isName_of_follow {t : FileTree Leaf} {last : Bool} {fuel links : Nat} {here ns at_ : List Text}
    (hhere : ∀ n ∈ here, n.IsName) (hns : ∀ n ∈ ns, n.IsName)
    (h : follow t last fuel links here ns = .ok at_) : ∀ n ∈ at_, n.IsName := by
  fun_induction follow t last fuel links here ns with
  | case1 | case6 | case9 | case12 => cases h
  | case2 =>
    cases h
    exact hhere
  | case3 _ _ _ _ ih => exact ih hhere (List.forall_mem_cons.mp hns).2 h
  | case4 _ _ _ _ _ ih =>
    exact ih (fun n hn => hhere n (List.mem_of_mem_drop hn)) (List.forall_mem_cons.mp hns).2 h
  | case5 | case8 | case11 =>
    cases h
    exact List.forall_mem_cons.mpr ⟨(List.forall_mem_cons.mp hns).1, hhere⟩
  | case7 _ _ _ _ _ _ _ _ _ ih =>
    obtain ⟨hn, hrest⟩ := List.forall_mem_cons.mp hns
    exact ih (List.forall_mem_cons.mpr ⟨hn, hhere⟩) hrest h
  | case10 _ _ _ _ _ _ target _ _ _ start ih =>
    refine ih (fun n hn => ?_) (fun n hn => ?_) h
    · simp only [start] at hn
      split at hn
      · cases hn
      · exact hhere n hn
    · obtain hn | hn := List.mem_append.mp hn
      · exact isName_of_mem_steps hn
      · exact hns n (List.mem_cons_of_mem _ hn)

variable {d : Disk}

theorem isName_of_place {last : Bool} {p : Text} {at_ : List Text} (h : d.place last p = .ok at_) :
    ∀ n ∈ at_, n.IsName := by
  simp only [place] at h
  split at h
  · cases h
  · cases hf : follow d.root last _ maxLinks [] _ with
    | error f =>
      rw [hf] at h
      cases h
    | ok rev =>
      rw [hf] at h
      cases h
      intro n hn
      refine isName_of_follow (List.forall_mem_nil _) (fun m hm => ?_) hf n (List.mem_reverse.mp hn)
      split at hm
      · exact isName_of_mem_steps hm
      · exact (List.mem_append.mp hm).elim isName_of_mem_steps isName_of_mem_steps

theorem isName_of_ownPlace {p n : Text} (h : n ∈ d.ownPlace p) : n.IsName := by
  simp only [ownPlace] at h
  cases hp : d.place false p with
  | error f =>
    rw [hp] at h
    cases h
  | ok at_ =>
    rw [hp] at h
    exact isName_of_place hp n h

/-- A file is written where its path leads to, unless a directory is there. -/
theorem placeForWriting_eq_ok {p : Text} {at_ : List Text} (h : d.placeForWriting p = .ok at_) :
    d.place true p = .ok at_ ∧ ∀ es, d.root.getAt? at_ ≠ some (.dir es) := by
  simp only [placeForWriting] at h
  split at h
  · cases h
  · next hp =>
    split at h
    · cases h
    · next hno =>
      cases h
      exact ⟨hp, hno⟩

/-- A directory is made where nothing is. -/
theorem makeDir_eq_ok {d' : Disk} {p : Text} (h : d.makeDir p = .ok d') :
    ∃ at_, d.place false p = .ok at_ ∧ d.root.getAt? at_ = none ∧
      d' = { d with root := d.root.setAt at_ (.dir .nil) } := by
  simp only [makeDir] at h
  split at h
  · cases h
  · next hp =>
    split at h
    · cases h
    · next hnone =>
      cases h
      exact ⟨_, hp, hnone, rfl⟩

theorem isName_of_placeForWriting {p : Text} {at_ : List Text}
    (h : d.placeForWriting p = .ok at_) : ∀ n ∈ at_, n.IsName :=
  isName_of_place (placeForWriting_eq_ok h).1

/-- What making one directory keeps is kept by making the directories above it as well. -/
theorem makeDirsFrom_induction {P : Disk → Prop}
    (hstep : ∀ {d d' : Disk} {p : Text}, P d → d.makeDir p = .ok d' → P d') {d' : Disk} {fuel : Nat} {p : Text}
    (hd : P d) (h : d.makeDirsFrom fuel p = .ok d') : P d' := by
  induction fuel generalizing d' p with
  | zero =>
    cases h
    exact hd
  | succ fuel ih =>
    rw [makeDirsFrom] at h
    split at h
    · cases h
      exact hd
    · cases h
    · dsimp only at h
      split at h
      · exact hstep hd h
      · obtain ⟨d₁, hup, hlast⟩ := Outcome.bind_eq_ok h
        exact hstep (ih hup) hlast

namespace Proper

theorem withLeaf (h : d.Proper) {at_ : List Text} (hat : ∀ n ∈ at_, n.IsName) (l : Leaf) :
    (d.withLeaf at_ l).Proper :=
  FileTree.Proper.setAt h hat trivial

theorem putFile (h : d.Proper) {d' : Disk} {p content : Text} (hput : d.putFile p content = .ok d') :
    d'.Proper := by
  obtain ⟨at_, hp, hput⟩ := Outcome.bind_eq_ok hput
  cases hput
  exact h.withLeaf (isName_of_placeForWriting hp) _

theorem makeDir (h : d.Proper) {d' : Disk} {p : Text} (hmake : d.makeDir p = .ok d') : d'.Proper := by
  obtain ⟨at_, hp, -, rfl⟩ := makeDir_eq_ok hmake
  exact FileTree.Proper.setAt h (isName_of_place hp) trivial

theorem makeDirsFrom (h : d.Proper) {d' : Disk} {fuel : Nat} {p : Text}
    (hmake : d.makeDirsFrom fuel p = .ok d') : d'.Proper :=
  makeDirsFrom_induction (fun h hmake => h.makeDir hmake) h hmake

theorem getD (h : d.Proper) {o : Outcome Disk} (ho : ∀ d', o = .ok d' → d'.Proper) :
    (o.toOption.getD d).Proper := by
  cases o with
  | error f => exact h
  | ok d' => exact ho d' rfl

theorem lstat (h : d.Proper) {p : Text} {e : FileTree.Entry Leaf} (hstat : d.lstat p = .ok e) :
    e.Proper := by
  obtain ⟨at_, -, hget⟩ := Outcome.bind_eq_ok hstat
  split at hget
  · next hsome =>
    cases hget
    exact FileTree.Proper.getAt? h hsome
  · cases hget

/-- **Changes from outside keep a disk well-formed.** -/
theorem apply (h : d.Proper) (c : Change) : (d.apply c).Proper := by
  cases c with
  | write p content =>
    have hmade : ((d.makeDirs (Path.parent (d.absolute p))).toOption.getD d).Proper :=
      h.getD fun d' => h.makeDirsFrom
    exact hmade.getD fun d' => hmade.putFile
  | remove p => exact FileTree.Proper.eraseAt h _
  | makeDir p => exact h.getD fun d' => h.makeDirsFrom
  | rename p q =>
    simp only [Disk.apply]
    split
    · next e source target hmove =>
      simp only [moveOf?] at hmove
      split at hmove
      · next hentry hplace =>
        split at hmove
        · cases hmove
        · cases hmove
          exact FileTree.Proper.setAt (FileTree.Proper.eraseAt h _) (isName_of_place hplace)
            (h.lstat hentry)
      · cases hmove
    · exact h
  | link target p => exact h.withLeaf (fun n hn => isName_of_ownPlace hn) _

/-- **No file is listed twice.** -/
theorem nodup_sources (h : d.Proper) {scope : Scope} {dir : Text} {files : List SourceFile}
    (hfiles : d.sources scope dir = .ok files) : (files.map (·.path)).Nodup := by
  simp only [sources] at hfiles
  split at hfiles
  · cases hfiles
  · cases hfiles
    split <;> simp
  · next hstat =>
    cases hfiles
    have hunder : (under (Path.absolute d.directory dir)).Injective := by
      intro q q' hq
      simp only [under] at hq
      split at hq
      · exact List.append_cancel_left hq
      · exact List.append_cancel_left hq
    have hnodup := List.Nodup.map hunder (scope.nodup_select [] (h.lstat hstat))
    simpa [List.map_map, Function.comp_def] using hnodup

end Proper

end Disk

end StubDecl
