import Mathlib.Data.Set.Function
import Mathlib.Tactic.Common
import StubDecl.Proofs.Declaration
import StubDecl.Run.Basic

/-!
# Sound caches

A cache is sound if each block in it was rendered from a known content of its file
(`BlockCache.Sound`). What a cache gives back need not be the block that was stored but an image of
it: `BlockCache.Keeps` says that nothing else comes back, whatever is stored and deleted. A cache some
of whose operations fail does no more than the cache does without failures, so it keeps a sound cache
sound.
-/

namespace StubDecl

/-- The summary of a file names the file. -/
theorem convertFile_path {m : TypeTable} {y : Style} {file content block : Text} {s : Summary}
    (h : convertFile m y file content = .ok (block, s)) : s.path = file := by
  obtain ⟨stubs, -, -, rfl⟩ := convertFile_eq_ok h
  rfl

/-- The block that a cache should hold for a file with a given content. -/
def IsRendered (m : TypeTable) (y : Style) (path content : Text) (b : CachedBlock) : Prop :=
  ∃ block s, convertFile m y path content = .ok (block, s) ∧
    b = Job.blockOf path (contentHash content) block s

theorem IsRendered.hash_eq {m : TypeTable} {y : Style} {path content : Text} {b : CachedBlock}
    (h : IsRendered m y path content b) : b.hash = contentHash content := by
  obtain ⟨block, s, -, rfl⟩ := h
  rfl

theorem IsRendered.path_eq {m : TypeTable} {y : Style} {path content : Text} {b : CachedBlock}
    (h : IsRendered m y path content b) : b.path = path := by
  obtain ⟨block, s, -, rfl⟩ := h
  rfl

namespace BlockCache

variable {κ : Type} {ops : BlockCache κ} {image : CachedBlock → CachedBlock} {faults : Faults}
  {failure : Failure} {c c' : κ} {p : Text} {b : CachedBlock}

/-- What can be looked up after storing is the image of what was stored, or could be looked up before;
deleting adds nothing. The image of a block has its digest. -/
structure Keeps (ops : BlockCache κ) (image : CachedBlock → CachedBlock) : Prop where
  get_put : ∀ {c c' : κ} {b b' : CachedBlock} {p : Text}, ops.put c b = .ok c' →
    ops.get c' p = .ok (some b') → p = b.path ∧ b' = image b ∨ ops.get c p = .ok (some b')
  get_delete : ∀ {c c' : κ} {b : CachedBlock} {p q : Text}, ops.delete c q = .ok c' →
    ops.get c' p = .ok (some b) → ops.get c p = .ok (some b)
  hash_image : ∀ {m : TypeTable} {y : Style} {path content : Text} {b : CachedBlock},
    IsRendered m y path content b → (image b).hash = contentHash content

/-- Every block in the cache is the image of one rendered from a known content. -/
def Sound (ops : BlockCache κ) (image : CachedBlock → CachedBlock) (m : TypeTable) (y : Style)
    (known : Set Text) (c : κ) : Prop :=
  ∀ p b, ops.get c p = .ok (some b) → ∃ t ∈ known, ∃ b₀, IsRendered m y p t b₀ ∧ b = image b₀

theorem faulty_get (h : (ops.faulty faults failure).get c p = .ok (some b)) :
    ops.get c p = .ok (some b) := by
  simp only [faulty] at h
  split at h
  · cases h
  · exact h

theorem faulty_put (h : (ops.faulty faults failure).put c b = .ok c') : ops.put c b = .ok c' := by
  simp only [faulty] at h
  split at h
  · cases h
  · exact h

theorem faulty_delete (h : (ops.faulty faults failure).delete c p = .ok c') :
    ops.delete c p = .ok c' := by
  simp only [faulty] at h
  split at h
  · cases h
  · exact h

/-- Blocks in memory come back as they are. -/
theorem memory_keeps : memory.Keeps id where
  get_put := by
    intro c c' b b' p hput hget
    cases hput
    simp only [memory, MemoryCache.put, Except.ok.injEq, Bucket.get?_insert] at hget
    split at hget
    · next hp => exact .inl ⟨hp, (Option.some.inj hget).symm⟩
    · exact .inr (congrArg _ hget)
  get_delete := by
    intro c c' b p q hdel hget
    cases hdel
    simp only [memory, Except.ok.injEq, Bucket.get?_erase] at hget
    split at hget
    · cases hget
    · exact congrArg _ hget
  hash_image := fun h => h.hash_eq

theorem memory_sound_nil (m : TypeTable) (y : Style) (known : Set Text) :
    memory.Sound id m y known [] := nofun

namespace Sound

variable {m : TypeTable} {y : Style} {known : Set Text}

theorem put (hk : ops.Keeps image) (h : ops.Sound image m y known c) {t : Text} (ht : t ∈ known)
    (hb : IsRendered m y p t b) (hput : ops.put c b = .ok c') : ops.Sound image m y known c' := by
  intro q b' hget
  obtain ⟨rfl, rfl⟩ | hget := hk.get_put hput hget
  · rw [hb.path_eq]
    exact ⟨t, ht, b, hb, rfl⟩
  · exact h q b' hget

theorem delete (hk : ops.Keeps image) (h : ops.Sound image m y known c)
    (hdel : ops.delete c p = .ok c') : ops.Sound image m y known c' :=
  fun q b hget => h q b (hk.get_delete hdel hget)

end Sound

end BlockCache

namespace Job

open BlockCache

variable {κ : Type} {ops : BlockCache κ} {image : CachedBlock → CachedBlock} {faults : Faults}
  {failure : Failure} {j : Job κ} {known : Set Text} {c : κ} {t : Text} {b : CachedBlock}

theorem cachedBlock?_eq_some (hj : j.cache = some (ops.faulty faults failure)) {path hash : Text}
    (h : j.cachedBlock? c path hash = some b) : ops.get c path = .ok (some b) ∧ b.hash = hash := by
  simp only [cachedBlock?, hj] at h
  split at h
  · next b' hget =>
    split at h
    · next hh =>
      cases h
      exact ⟨faulty_get hget, hh⟩
    · cases h
  · cases h

/-- A block that a sound cache gives for the digest of a known content is the image of the one rendered
from this content. This is where digests have to tell contents apart. -/
theorem isRendered_of_cachedBlock? (hj : j.cache = some (ops.faulty faults failure))
    (hk : ops.Keeps image) (hs : ops.Sound image j.table j.style known c)
    (hinj : Set.InjOn contentHash known) (ht : t ∈ known) {path : Text}
    (h : j.cachedBlock? c path (contentHash t) = some b) :
    ∃ b₀, IsRendered j.table j.style path t b₀ ∧ b = image b₀ := by
  obtain ⟨hget, hhash⟩ := cachedBlock?_eq_some hj h
  obtain ⟨t', ht', b₀, hb, rfl⟩ := hs path b hget
  have htt : t' = t := hinj ht' ht ((hk.hash_image hb).symm.trans hhash)
  subst htt
  exact ⟨b₀, hb, rfl⟩

theorem sound_remember (hj : j.cache = some (ops.faulty faults failure)) (hk : ops.Keeps image)
    (hs : ops.Sound image j.table j.style known c) (ht : t ∈ known) {path : Text}
    (hb : IsRendered j.table j.style path t b) :
    ops.Sound image j.table j.style known (j.remember c b) := by
  simp only [remember, hj]
  split
  · next c' hput => exact hs.put hk ht hb (faulty_put hput)
  · exact hs

/-- What deleting keeps, pruning keeps, also if it is broken off. -/
theorem prune_induction {P : κ → Prop}
    (hdelete : ∀ {c c' : κ} {p : Text}, ops.delete c p = .ok c' → P c → P c') (faults : Faults)
    (failure : Failure) (files : List SourceFile) (hc : P c) :
    P (prune (ops.faulty faults failure) files c).1 := by
  have hstale : ∀ (stale : Text → Bool) (ps : List Text) (c : κ) (n : Nat), P c →
      P (deleteStale (ops.faulty faults failure) stale ps c n).1 := by
    intro stale ps
    induction ps with
    | nil => exact fun _ _ hc => hc
    | cons p ps ih =>
      intro c n hc
      simp only [deleteStale]
      split
      · split
        · next c' hdel => exact ih _ _ (hdelete (faulty_delete hdel) hc)
        · exact hc
      · exact ih _ _ hc
  simp only [prune]
  split
  · exact hc
  · exact hstale _ _ _ _ hc

end Job

end StubDecl
