import StubDecl.Cache.Bucket
import StubDecl.Proofs.Text.Order

/-!
# The keys of a bucket

A bucket has exactly the keys that can be looked up (`Bucket.mem_keys_iff`), and it is ordered if they
increase bytewise, which inserting and erasing keep. The keys of such a bucket are what sorting gives, in
whatever order its entries are gone through (`Bucket.Ordered.sort_keys`). Buckets whose values are changed
one by one have the same keys and are changed by insertions and erasures in the same way.
-/

namespace StubDecl

namespace Bucket

variable {α β : Type}

@[simp] theorem keys_cons (e : Text × α) (b : Bucket α) : keys (e :: b) = e.1 :: keys b := rfl

/-! ## Which keys there are -/

/-- The keys are those that have a value. -/
theorem mem_keys_iff {b : Bucket α} {k : Text} : k ∈ b.keys ↔ (b.get? k).isSome = true := by
  induction b with
  | nil => simp [keys, get?]
  | cons e b ih =>
    rw [keys_cons, List.mem_cons, ih, get?_cons]
    by_cases h : k = e.1 <;> simp [h]

theorem mem_keys_insert {b : Bucket α} {k k' : Text} {v : α} :
    k' ∈ (b.insert k v).keys ↔ k' = k ∨ k' ∈ b.keys := by
  rw [mem_keys_iff, mem_keys_iff, get?_insert]
  by_cases h : k' = k <;> simp [h]

/-- Of the keys that `p` picks, inserting one that it does not pick changes nothing. -/
theorem filter_keys_insert {p : Text → Bool} (b : Bucket α) {k : Text} (hk : p k = false) (v : α) :
    (b.insert k v).keys.filter p = b.keys.filter p := by
  induction b with
  | nil => simp [insert, keys, hk]
  | cons e b ih =>
    obtain ⟨k', v'⟩ := e
    by_cases h : k' = k
    · subst h
      simp [insert, hk]
    · by_cases hle : Text.le k k' = true
      · simp [insert, h, hle, hk]
      · simp only [insert, if_neg h, if_neg hle, keys_cons, List.filter_cons, ih]

theorem get?_foldl_erase (ks : List Text) (b : Bucket α) (k : Text) :
    (ks.foldl erase b).get? k = if k ∈ ks then none else b.get? k := by
  induction ks generalizing b with
  | nil => simp
  | cons k' ks ih =>
    rw [List.foldl_cons, ih, get?_erase]
    by_cases h : k = k' <;> simp [h]

/-! ## Order -/

/-- The keys increase. -/
def Ordered (b : Bucket α) : Prop := b.keys.Pairwise Text.Precedes

theorem ordered_nil : Ordered ([] : Bucket α) := List.Pairwise.nil

theorem Ordered.insert {b : Bucket α} (h : b.Ordered) (k : Text) (v : α) :
    (b.insert k v).Ordered := by
  induction b with
  | nil => exact List.pairwise_singleton _ _
  | cons e b ih =>
    obtain ⟨k', v'⟩ := e
    obtain ⟨hfirst, hrest⟩ := List.pairwise_cons.mp h
    by_cases hk : k' = k
    · have hnew : Bucket.insert ((k', v') :: b) k v = (k, v) :: b := by
        simp only [Bucket.insert, if_pos hk]
      rw [hnew, ← hk]
      exact List.pairwise_cons.mpr ⟨hfirst, hrest⟩
    · by_cases hle : Text.le k k' = true
      · have hpre : k.Precedes k' := ⟨hle, Ne.symm hk⟩
        have hnew : Bucket.insert ((k', v') :: b) k v = (k, v) :: (k', v') :: b := by
          simp only [Bucket.insert, if_neg hk, if_pos hle]
        rw [hnew]
        refine List.pairwise_cons.mpr ⟨fun x hx => ?_, h⟩
        obtain rfl | hx := List.mem_cons.mp hx
        · exact hpre
        · exact hpre.trans (hfirst x hx)
      · have hnew : Bucket.insert ((k', v') :: b) k v = (k', v') :: Bucket.insert b k v := by
          simp only [Bucket.insert, if_neg hk, if_neg hle]
        rw [hnew]
        refine List.pairwise_cons.mpr ⟨fun x hx => ?_, ih hrest⟩
        obtain rfl | hx := mem_keys_insert.mp hx
        · exact Text.precedes_of_not_le hle
        · exact hfirst x hx

theorem Ordered.erase {b : Bucket α} (h : b.Ordered) (k : Text) : (b.erase k).Ordered :=
  List.Pairwise.sublist (List.Sublist.map _ List.filter_sublist) h

theorem Ordered.nodup_keys {b : Bucket α} (h : b.Ordered) : b.keys.Nodup :=
  List.Pairwise.imp (fun hpre => hpre.2) h

/-- What going through a bucket gives, in any order: no key comes twice, and the entries are those that can
be looked up. -/
structure Enumerates (b : Bucket α) (es : List (Text × α)) : Prop where
  nodup : (es.map Prod.fst).Nodup
  mem_iff : ∀ k v, (k, v) ∈ es ↔ b.get? k = some v

theorem Enumerates.mem_keys_iff {b : Bucket α} {es : List (Text × α)} (h : b.Enumerates es) (k : Text) :
    k ∈ es.map Prod.fst ↔ k ∈ b.keys := by
  rw [Bucket.mem_keys_iff, Option.isSome_iff_exists, List.mem_map]
  constructor
  · rintro ⟨⟨k, v⟩, hmem, rfl⟩
    exact ⟨v, (h.mem_iff k v).mp hmem⟩
  · rintro ⟨v, hget⟩
    exact ⟨(k, v), (h.mem_iff k v).mpr hget, rfl⟩

/-- Going through an ordered bucket in any order and sorting the keys gives its keys. -/
theorem Ordered.sort_keys {b : Bucket α} (h : b.Ordered) {es : List (Text × α)} (hes : b.Enumerates es) :
    Text.sort (es.map Prod.fst) = b.keys := by
  have hperm : (es.map Prod.fst).Perm b.keys :=
    (List.perm_ext_iff_of_nodup hes.nodup h.nodup_keys).mpr hes.mem_keys_iff
  have hsorted : b.keys.Pairwise fun s t => Text.le s t = true := List.Pairwise.imp (fun hpre => hpre.1) h
  rw [Text.sort_eq_of_perm hperm, Text.sort_of_pairwise hsorted]

/-! ## Other values -/

/-- The bucket with other values under the same keys. -/
def mapValues (f : α → β) (b : Bucket α) : Bucket β := b.map fun e => (e.1, f e.2)

variable (f : α → β) (b : Bucket α)

theorem keys_mapValues : (b.mapValues f).keys = b.keys := by
  simp [mapValues, keys]

theorem get?_mapValues (k : Text) : (b.mapValues f).get? k = (b.get? k).map f := by
  induction b with
  | nil => rfl
  | cons e b ih =>
    rw [mapValues, List.map_cons, get?_cons, get?_cons, ← mapValues, ih]
    split <;> rfl

theorem insert_mapValues (k : Text) (v : α) :
    (b.mapValues f).insert k (f v) = (b.insert k v).mapValues f := by
  induction b with
  | nil => rfl
  | cons e b ih =>
    obtain ⟨k', v'⟩ := e
    simp only [mapValues, List.map_cons, Bucket.insert] at ih ⊢
    split
    · rfl
    · split
      · rfl
      · rw [ih, List.map_cons]

theorem erase_mapValues (k : Text) : (b.mapValues f).erase k = (b.erase k).mapValues f := by
  simp only [mapValues, Bucket.erase, List.filter_map]
  rfl

end Bucket

end StubDecl
