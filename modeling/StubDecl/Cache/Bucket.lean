import StubDecl.Text.Basic

/-!
# Buckets

Maps from keys to values that keep their keys in bytewise order.
-/

namespace StubDecl

/-- Entries with distinct keys in bytewise order. -/
abbrev Bucket (α : Type) := List (Text × α)

namespace Bucket

variable {α : Type}

/-- The value of a key. -/
def get? : Bucket α → Text → Option α
  | [], _ => none
  | (k', v) :: b, k => if k = k' then some v else get? b k

/-- The bucket with `k` sent to `v`. -/
def insert : Bucket α → Text → α → Bucket α
  | [], k, v => [(k, v)]
  | (k', v') :: b, k, v =>
    if k' = k then (k, v) :: b
    else if Text.le k k' then (k, v) :: (k', v') :: b
    else (k', v') :: insert b k v

/-- The bucket without a key. -/
def erase (b : Bucket α) (k : Text) : Bucket α := b.filter fun e => e.1 ≠ k

/-- The keys, in bytewise order. -/
def keys (b : Bucket α) : List Text := b.map (·.1)

theorem get?_cons (e : Text × α) (b : Bucket α) (k : Text) :
    get? (e :: b) k = if k = e.1 then some e.2 else get? b k := rfl

@[simp]
theorem get?_insert (b : Bucket α) (k : Text) (v : α) (k' : Text) :
    (b.insert k v).get? k' = if k' = k then some v else b.get? k' := by
  induction b with
  | nil => simp [insert, get?_cons]
  | cons e b ih =>
    obtain ⟨a, w⟩ := e
    by_cases h : a = k
    · subst h
      simp only [insert, if_pos, get?_cons]
      split <;> rfl
    · by_cases hle : Text.le k a = true
      · simp [insert, h, hle, get?_cons]
      · simp only [insert, if_neg h, if_neg hle, get?_cons, ih]
        by_cases h' : k' = a
        · subst h'
          simp [h]
        · simp [h']

@[simp]
theorem get?_erase (b : Bucket α) (k k' : Text) :
    (b.erase k).get? k' = if k' = k then none else b.get? k' := by
  induction b with
  | nil => simp [erase, get?]
  | cons e b ih =>
    obtain ⟨a, w⟩ := e
    by_cases h : a = k
    · subst h
      simp only [erase, ne_eq, not_true, decide_false, Bool.false_eq_true, not_false_eq_true,
        List.filter_cons_of_neg, get?_cons]
      by_cases h' : k' = a
      · simpa [erase, h'] using ih
      · simpa [erase, h'] using ih
    · have : (erase ((a, w) :: b) k) = (a, w) :: erase b k := by simp [erase, h]
      rw [this, get?_cons, get?_cons, ih]
      by_cases h' : k' = a
      · subst h'
        simp [h]
      · simp [h']

end Bucket

end StubDecl
