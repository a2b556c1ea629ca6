import StubDecl.Proofs.File.Disk

/-!
# What is at a place

For most purposes it is enough to know of each place whether there is a leaf, a directory or nothing
(`FileTree.node?`). Setting and erasing an entry changes this at and below its place, and nowhere else
(`FileTree.node?_setAt_append`, `FileTree.node?_setAt_elsewhere`, `FileTree.node?_eraseAt_append`,
`FileTree.node?_eraseAt_elsewhere`).
-/

namespace StubDecl.FileTree

variable {α : Type} {t : FileTree α} {n m : Text} {e : Entry α}

/-- What is at a place: a leaf with its content, or a directory. -/
inductive Node (α : Type) where
  | leaf (content : α)
  | dir
  deriving DecidableEq, Repr

namespace Entry

/-- The entry at the end of a path of names that starts in an entry. -/
def getAt? : Entry α → List Text → Option (Entry α)
  | .leaf a, [] => some (.leaf a)
  | .leaf _, _ :: _ => none
  | .dir es, p => es.getAt? p

/-- What an entry is, whatever lies in it. -/
def node : Entry α → Node α
  | .leaf a => .leaf a
  | .dir _ => .dir

/-- What is at the end of a path of names that starts in an entry. -/
def node? (e : Entry α) (p : List Text) : Option (Node α) := (e.getAt? p).map node

@[simp] theorem getAt?_nil (e : Entry α) : e.getAt? [] = some e := by cases e <;> rfl

@[simp] theorem node?_nil (e : Entry α) : e.node? [] = some e.node := by rw [node?, getAt?_nil]; rfl

end Entry

/-- What is at a place. -/
def node? (t : FileTree α) (p : List Text) : Option (Node α) := (t.getAt? p).map Entry.node

@[simp] theorem node?_nil (t : FileTree α) : t.node? [] = some .dir := rfl

@[simp] theorem node?_dir (es : FileTree α) (p : List Text) : (Entry.dir es).node? p = es.node? p := rfl

/-! ## Along a path -/

/-- What lies above something else lies at or above the directory that holds it. -/
theorem prefix_dropLast {p q : List Text} (hpre : p <+: q) (hne : p ≠ q) : p <+: q.dropLast := by
  obtain ⟨r, rfl⟩ := hpre
  have hr : r ≠ [] := by
    rintro rfl
    exact hne (List.append_nil p).symm
  rw [List.dropLast_append_of_ne_nil hr]
  exact List.prefix_append p r.dropLast

/-- What lies in something does not lie above it. -/
theorem not_append_isPrefix {p q : List Text} (hq : q ≠ []) : ¬p ++ q <+: p := by
  intro hpre
  have hlen := hpre.length_le
  rw [List.length_append] at hlen
  exact hq (List.eq_nil_of_length_eq_zero (by omega))

theorem getAt?_cons (t : FileTree α) (n : Text) (p : List Text) :
    t.getAt? (n :: p) = (t.get? n).bind fun e => e.getAt? p := by
  cases p with
  | nil =>
    rw [getAt?]
    cases t.get? n <;> simp
  | cons m p =>
    rw [getAt?]
    · split
      · next es hget => simp [hget, Entry.getAt?]
      · next hget =>
        cases hn : t.get? n with
        | none => rfl
        | some e =>
          cases e with
          | leaf a => rfl
          | dir es => exact absurd hn (hget es)
    · nofun

theorem node?_cons (t : FileTree α) (n : Text) (p : List Text) :
    t.node? (n :: p) = (t.get? n).bind fun e => e.node? p := by
  rw [node?, getAt?_cons, Option.map_bind]
  rfl

theorem getAt?_append (t : FileTree α) (p q : List Text) :
    t.getAt? (p ++ q) = (t.getAt? p).bind fun e => e.getAt? q := by
  induction p generalizing t with
  | nil => rfl
  | cons n p ih =>
    rw [List.cons_append, getAt?_cons, getAt?_cons]
    cases t.get? n with
    | none => rfl
    | some e =>
      cases e with
      | leaf a =>
        cases p with
        | nil => rfl
        | cons m p => rfl
      | dir es => exact ih es

theorem node?_append (t : FileTree α) (p q : List Text) :
    t.node? (p ++ q) = (t.getAt? p).bind fun e => e.node? q := by
  rw [node?, getAt?_append, Option.map_bind]
  rfl

theorem node?_eq_dir_iff {p : List Text} :
    t.node? p = some .dir ↔ ∃ es, t.getAt? p = some (.dir es) := by
  rw [node?, Option.map_eq_some_iff]
  constructor
  · rintro ⟨e, hget, hnode⟩
    cases e with
    | leaf a => cases hnode
    | dir es => exact ⟨es, hget⟩
  · rintro ⟨es, hget⟩
    exact ⟨.dir es, hget, rfl⟩

theorem node?_eq_leaf_iff {p : List Text} {a : α} :
    t.node? p = some (.leaf a) ↔ t.getAt? p = some (.leaf a) := by
  rw [node?, Option.map_eq_some_iff]
  constructor
  · rintro ⟨e, hget, hnode⟩
    cases e with
    | leaf b =>
      cases hnode
      exact hget
    | dir es => cases hnode
  · intro hget
    exact ⟨.leaf a, hget, rfl⟩

theorem node?_eq_none_iff {p : List Text} : t.node? p = none ↔ t.getAt? p = none := by
  rw [node?, Option.map_eq_none_iff]

/-- Above everything that there is, there are directories. -/
theorem node?_of_append {p q : List Text} (h : t.node? (p ++ q) ≠ none) (hq : q ≠ []) :
    t.node? p = some .dir := by
  rw [node?_append] at h
  cases hget : t.getAt? p with
  | none =>
    rw [hget] at h
    exact absurd rfl h
  | some e =>
    cases e with
    | leaf a =>
      obtain ⟨n, q, rfl⟩ := List.exists_cons_of_ne_nil hq
      rw [hget] at h
      exact absurd rfl h
    | dir es => exact node?_eq_dir_iff.mpr ⟨es, hget⟩

theorem node?_of_isPrefix {p q : List Text} (h : t.node? q ≠ none) (hpre : p <+: q) (hne : p ≠ q) :
    t.node? p = some .dir := by
  obtain ⟨r, rfl⟩ := hpre
  refine node?_of_append h ?_
  rintro rfl
  exact hne (List.append_nil p).symm

theorem node?_dropLast {p : List Text} (h : t.node? p ≠ none) : t.node? p.dropLast = some .dir := by
  obtain rfl | ⟨q, n, rfl⟩ := List.eq_nil_or_concat' p
  · rfl
  · rw [List.dropLast_concat]
    exact node?_of_append h (List.cons_ne_nil n [])

/-- Below what is no directory there is nothing. -/
theorem node?_eq_none_of_isPrefix {p q : List Text} (hno : t.node? p ≠ some .dir) (hpre : p <+: q)
    (hne : p ≠ q) : t.node? q = none := by
  by_contra hsome
  exact hno (node?_of_isPrefix hsome hpre hne)

theorem Proper.isName_of_node? (h : t.Proper) {p : List Text} (hp : t.node? p ≠ none) :
    ∀ n ∈ p, n.IsName := by
  induction p generalizing t with
  | nil => exact List.forall_mem_nil _
  | cons n p ih =>
    rw [node?_cons] at hp
    cases hget : t.get? n with
    | none =>
      rw [hget] at hp
      exact absurd rfl hp
    | some e =>
      obtain ⟨hn, he⟩ := h.get? hget
      refine List.forall_mem_cons.mpr ⟨hn, ?_⟩
      cases e with
      | leaf a =>
        cases p with
        | nil => exact List.forall_mem_nil _
        | cons m p =>
          rw [hget] at hp
          exact absurd rfl hp
      | dir es =>
        rw [hget] at hp
        exact ih he hp

/-! ## Setting and erasing one entry -/

theorem get?_set (t : FileTree α) (n m : Text) (e : Entry α) :
    (t.set n e).get? m = if n = m then some e else t.get? m := by
  induction t using cons_induction with
  | nil => rw [set, get?_cons]
  | cons k e' t _ ih =>
    rw [set_cons, get?_cons]
    split
    · next hkn =>
      subst hkn
      rw [get?_cons]
      split
      · rfl
      · rfl
    · next hkn =>
      split
      · rw [get?_cons, get?_cons]
      · rw [get?_cons, ih]
        split
        · next hkm => rw [if_neg fun h => hkn (hkm.trans h.symm)]
        · rfl

theorem mem_names_of_get? (h : t.get? n = some e) : n ∈ t.names := by
  induction t using cons_induction with
  | nil => cases h
  | cons k e' t _ ih =>
    rw [get?_cons] at h
    rw [names_cons, List.mem_cons]
    split at h
    · next hkn => exact .inl hkn.symm
    · exact .inr (ih h)

theorem get?_eq_none_of_notMem (h : n ∉ t.names) : t.get? n = none := by
  cases hget : t.get? n with
  | none => rfl
  | some e => exact absurd (mem_names_of_get? hget) h

theorem get?_erase (h : t.Proper) (n m : Text) :
    (t.erase n).get? m = if n = m then none else t.get? m := by
  induction t using cons_induction with
  | nil =>
    rw [erase, get?]
    split <;> rfl
  | cons k e t _ ih =>
    obtain ⟨-, -, hfirst, ht⟩ := proper_cons.mp h
    rw [erase_cons, get?_cons]
    split
    · next hkn =>
      subst hkn
      split
      · next hkm =>
        subst hkm
        exact get?_eq_none_of_notMem fun hmem => (hfirst k hmem).2 rfl
      · rfl
    · next hkn =>
      rw [get?_cons, ih ht]
      split
      · next hkm => rw [if_neg fun h => hkn (hkm.trans h.symm)]
      · rfl

/-! ## A tree with an entry in front -/

/-- What is at a place lies in the first entry or in the other ones, whose names are others. -/
theorem node?_cons_eq_some (h : (cons n e t).Proper) {p : List Text} {k : Node α} :
    (cons n e t).node? (m :: p) = some k ↔
      n = m ∧ e.node? p = some k ∨ t.node? (m :: p) = some k := by
  obtain ⟨-, -, hfirst, -⟩ := proper_cons.mp h
  rw [node?_cons, get?_cons, node?_cons t]
  split
  · next hnm =>
    subst hnm
    have hother : t.get? n = none := get?_eq_none_of_notMem fun hmem => (hfirst n hmem).2 rfl
    simp [hother]
  · next hnm => simp [hnm]

theorem node?_cons_eq_leaf (h : (cons n e t).Proper) {p : List Text} {a : α} :
    (cons n e t).node? p = some (.leaf a) ↔
      (∃ q, p = n :: q ∧ e.node? q = some (.leaf a)) ∨ t.node? p = some (.leaf a) := by
  cases p with
  | nil => simp
  | cons m p =>
    rw [node?_cons_eq_some h]
    refine or_congr ?_ Iff.rfl
    constructor
    · rintro ⟨rfl, hleaf⟩
      exact ⟨p, rfl, hleaf⟩
    · rintro ⟨q, hq, hleaf⟩
      obtain ⟨rfl, rfl⟩ := List.cons.inj hq
      exact ⟨rfl, hleaf⟩

/-! ## Setting and erasing at a place -/

theorem setAt_cons_cons {es : FileTree α} (hget : t.get? n = some (.dir es)) (p : List Text)
    (e : Entry α) : t.setAt (n :: m :: p) e = t.set n (.dir (es.setAt (m :: p) e)) := by
  rw [setAt]
  · rw [hget]
  · nofun

theorem get?_of_node?_cons {p : List Text} (h : t.node? (n :: p) = some .dir) :
    ∃ es, t.get? n = some (.dir es) ∧ es.node? p = some .dir := by
  rw [node?_cons] at h
  obtain ⟨e, hget, hnode⟩ := Option.bind_eq_some_iff.mp h
  cases e with
  | leaf a => cases p <;> cases hnode
  | dir es => exact ⟨es, hget, hnode⟩

/-- What is set is there, with all that is in it. -/
theorem node?_setAt_append {place : List Text} (hne : place ≠ [])
    (hdir : t.node? place.dropLast = some .dir) (e : Entry α) (q : List Text) :
    (t.setAt place e).node? (place ++ q) = e.node? q := by
  induction place generalizing t with
  | nil => exact absurd rfl hne
  | cons n place ih =>
    cases place with
    | nil =>
      rw [setAt, List.singleton_append, node?_cons, get?_set, if_pos rfl]
      rfl
    | cons m place =>
      obtain ⟨es, hget, hes⟩ := get?_of_node?_cons hdir
      rw [setAt_cons_cons hget, List.cons_append, node?_cons, get?_set, if_pos rfl]
      exact ih (List.cons_ne_nil m place) hes

/-- What is set changes nothing elsewhere. -/
theorem node?_setAt_elsewhere {place q : List Text} (hq : ¬place <+: q) (t : FileTree α)
    (e : Entry α) : (t.setAt place e).node? q = t.node? q := by
  induction place generalizing t q with
  | nil => exact absurd List.nil_prefix hq
  | cons n place ih =>
    cases q with
    | nil => rfl
    | cons k q =>
      cases place with
      | nil =>
        have hnk : n ≠ k := fun h => hq (List.prefix_cons_iff.mpr (.inr ⟨[], by simp [h]⟩))
        rw [setAt, node?_cons, get?_set, if_neg hnk, node?_cons]
      | cons m place =>
        cases hget : t.get? n with
        | none => rw [setAt, hget]; nofun
        | some e' =>
          cases e' with
          | leaf a => rw [setAt, hget]; nofun
          | dir es =>
            rw [setAt_cons_cons hget, node?_cons, get?_set, node?_cons]
            split
            · next hnk =>
              subst hnk
              rw [hget]
              exact ih (fun h => hq (List.cons_prefix_cons.mpr ⟨rfl, h⟩)) es
            · rfl

/-- What is erased is gone with all that was in it. -/
theorem node?_eraseAt_append {place : List Text} (hne : place ≠ []) (h : t.Proper) (q : List Text) :
    (t.eraseAt place).node? (place ++ q) = none := by
  induction place generalizing t with
  | nil => exact absurd rfl hne
  | cons n place ih =>
    cases place with
    | nil => rw [eraseAt, List.singleton_append, node?_cons, get?_erase h, if_pos rfl]; rfl
    | cons m place =>
      rw [eraseAt, List.cons_append]
      · split
        · next es hget =>
          rw [node?_cons, get?_set, if_pos rfl]
          exact ih (List.cons_ne_nil m place) (h.get? hget).2
        · next hget =>
          rw [node?_cons]
          cases hn : t.get? n with
          | none => rfl
          | some e =>
            cases e with
            | leaf a => rfl
            | dir es => exact absurd hn (hget es)
      · nofun

/-- What is erased changes nothing elsewhere. -/
theorem node?_eraseAt_elsewhere {place q : List Text} (hq : ¬place <+: q) (h : t.Proper) :
    (t.eraseAt place).node? q = t.node? q := by
  induction place generalizing t q with
  | nil => exact absurd List.nil_prefix hq
  | cons n place ih =>
    cases q with
    | nil => rfl
    | cons k q =>
      cases place with
      | nil =>
        have hnk : n ≠ k := fun h => hq (List.prefix_cons_iff.mpr (.inr ⟨[], by simp [h]⟩))
        rw [eraseAt, node?_cons, get?_erase h, if_neg hnk, node?_cons]
      | cons m place =>
        rw [eraseAt]
        · split
          · next es hget =>
            rw [node?_cons, get?_set, node?_cons]
            split
            · next hnk =>
              subst hnk
              rw [hget]
              exact ih (fun h => hq (List.cons_prefix_cons.mpr ⟨rfl, h⟩)) (h.get? hget).2
            · rfl
          · rfl
        · nofun

end StubDecl.FileTree
