import StubDecl.Proofs.Cache.Bucket
import StubDecl.Proofs.Cache.Record

/-!
# Both caches answer alike

A store keeps blocks as records on a disk, a cache in memory keeps them as they are. Whatever is looked
up, put, deleted and listed, and however often the store is closed and opened again, both give the same
answers (`StoreSession.answers_eq_memory`), as long as the paths can be keys of a store and all texts are
well-formed UTF-8. `StoreSession.Mirrors` is how the states are related: the store holds the records of
the blocks in memory.

A cache in memory lists its paths as if it went through its blocks in an order of its own each time and
sorted what it found (`BlockCache.paths_memory`).
-/

namespace StubDecl

/-- What can be asked of a cache. -/
inductive CacheCall where
  | get (path : Text)
  | put (b : CachedBlock)
  | delete (path : Text)
  | paths
  deriving DecidableEq, Repr

/-- What a cache answers: whether there is a block and which one (the empty one if there is none), that
something was done, or the paths that have blocks. -/
inductive CacheAnswer where
  | block (found : Bool) (b : CachedBlock)
  | done
  | paths (ps : List Text)
  deriving DecidableEq, Repr

namespace BlockCache

variable {κ : Type}

/-- The state after a change and the answer to it. A change that fails changes nothing. -/
def changed (c : κ) : Outcome κ → κ × Outcome CacheAnswer
  | .ok c' => (c', .ok .done)
  | .error f => (c, .error f)

/-- The state after a call and the answer to it. -/
def answer (ops : BlockCache κ) (c : κ) : CacheCall → κ × Outcome CacheAnswer
  | .get path => (c, (ops.get c path).map fun b => .block b.isSome (b.getD {}))
  | .put b => changed c (ops.put c b)
  | .delete path => changed c (ops.delete c path)
  | .paths => (c, (ops.paths c).map .paths)

/-- The answers to calls that are made one after the other. -/
def answers (ops : BlockCache κ) : κ → List CacheCall → List (Outcome CacheAnswer)
  | _, [] => []
  | c, call :: calls => (ops.answer c call).2 :: ops.answers (ops.answer c call).1 calls

/-- The state after calls that are made one after the other. -/
def after (ops : BlockCache κ) (c : κ) (calls : List CacheCall) : κ :=
  calls.foldl (fun c call => (ops.answer c call).1) c

theorem ordered_answer {c : MemoryCache} (h : c.Ordered) (call : CacheCall) :
    Bucket.Ordered (memory.answer c call).1 := by
  cases call with
  | get | paths => exact h
  | put b => exact h.insert b.path b
  | delete path => exact h.erase path

theorem ordered_after {c : MemoryCache} (h : c.Ordered) (calls : List CacheCall) :
    Bucket.Ordered (memory.after c calls) := by
  induction calls generalizing c with
  | nil => exact h
  | cons call calls ih => exact ih (ordered_answer h call)

/-- **A cache in memory lists its paths in bytewise order.** After any calls, going through the blocks in
any order and sorting their paths gives the list that is answered. -/
theorem paths_memory (calls : List CacheCall) {es : List (Text × CachedBlock)}
    (hes : Bucket.Enumerates (memory.after [] calls) es) :
    memory.paths (memory.after [] calls) = .ok (Text.sort (es.map Prod.fst)) :=
  congrArg Except.ok ((ordered_after Bucket.ordered_nil calls).sort_keys hes).symm

/-- A store that has to be open to be used. -/
def session : BlockCache StoreSession where
  get s path := (s.query fun t => store.get t path) >>= id
  put s b := s.update fun t => store.put t b
  delete s path := s.update fun t => store.delete t path
  paths s := (s.query fun t => store.paths t) >>= id

end BlockCache

/-- What is done with a store: a call, or closing and opening it again. -/
inductive StoreStep where
  | call (c : CacheCall)
  | reopen
  deriving DecidableEq, Repr

/-- The call of a step. -/
def StoreStep.call? : StoreStep → Option CacheCall
  | .call c => some c
  | .reopen => none

/-- The answers to the calls among steps. -/
def StoreSession.answers : StoreSession → List StoreStep → List (Outcome CacheAnswer)
  | _, [] => []
  | s, .reopen :: steps => s.close.reopen.answers steps
  | s, .call c :: steps =>
    (BlockCache.session.answer s c).2 :: (BlockCache.session.answer s c).1.answers steps

/-! ## What a store can hold -/

/-- All texts of the block are well-formed. -/
def CachedBlock.IsUtf8 (b : CachedBlock) : Prop :=
  b.path.isUtf8 = true ∧ b.hash.isUtf8 = true ∧ b.block.isUtf8 = true ∧
    b.className.isUtf8 = true ∧ b.parent.isUtf8 = true

instance (b : CachedBlock) : Decidable b.IsUtf8 := inferInstanceAs (Decidable (_ ∧ _))

/-- A key of a store: not empty and not too long. -/
def BlockStore.IsKey (k : Text) : Prop := 1 ≤ k.length ∧ k.length ≤ maxKeyLength

instance (k : Text) : Decidable (BlockStore.IsKey k) := inferInstanceAs (Decidable (_ ∧ _))

/-- The path of the call is a key, and a block that is put is well-formed. -/
def CacheCall.Fits : CacheCall → Prop
  | .get path => BlockStore.IsKey path
  | .put b => BlockStore.IsKey b.path ∧ b.IsUtf8
  | .delete path => BlockStore.IsKey path
  | .paths => True

instance : (c : CacheCall) → Decidable c.Fits
  | .get path => inferInstanceAs (Decidable (BlockStore.IsKey path))
  | .put b => inferInstanceAs (Decidable (BlockStore.IsKey b.path ∧ b.IsUtf8))
  | .delete path => inferInstanceAs (Decidable (BlockStore.IsKey path))
  | .paths => inferInstanceAs (Decidable True)

theorem BlockStore.keyFault?_eq_none {k : Text} (h : IsKey k) : keyFault? k = none := by
  obtain ⟨hlow, hhigh⟩ := h
  have hne : k.isEmpty = false := by
    rw [List.isEmpty_eq_false_iff]
    rintro rfl
    exact absurd hlow (by decide)
  rw [keyFault?, hne, if_neg Bool.false_ne_true, if_neg (by omega)]

theorem CachedBlock.IsUtf8.repaired_eq {b : CachedBlock} (h : b.IsUtf8) : b.repaired = b := by
  obtain ⟨hpath, hhash, hblock, hclass, hparent⟩ := h
  rw [← Text.repair_eq_self_iff] at hpath hhash hblock hclass hparent
  rw [repaired, hpath, hhash, hblock, hclass, hparent]

/-! ## The simulation -/

namespace StoreSession

open BlockCache

/-- The store is open and holds the records of the blocks in memory. -/
structure Mirrors (s : StoreSession) (c : MemoryCache) : Prop where
  isOpen : s.isOpen = true
  blocks : s.store.blocks = c.mapValues CachedBlock.toRecord
  isUtf8 : ∀ path b, c.get? path = some b → b.IsUtf8
  ordered : c.Ordered

theorem mirrors_new : Mirrors {} [] where
  isOpen := rfl
  blocks := rfl
  isUtf8 := nofun
  ordered := Bucket.ordered_nil

variable {s : StoreSession} {c : MemoryCache}

theorem Mirrors.reopen (h : Mirrors s c) : Mirrors s.close.reopen c where
  isOpen := rfl
  blocks := h.blocks
  isUtf8 := h.isUtf8
  ordered := h.ordered

/-- A record is read as the block it was made of. -/
theorem Mirrors.get (h : Mirrors s c) (path : Text) :
    session.get s path = .ok (c.get? path) := by
  have hget : session.get s path = BlockCache.store.get s.store path := by
    simp only [session, StoreSession.query, h.isOpen, if_true]
    rfl
  rw [hget]
  simp only [BlockCache.store, BlockStore.get, h.blocks, Bucket.get?_mapValues]
  cases hb : c.get? path with
  | none => rfl
  | some b =>
    simp only [Option.map_some, CachedBlock.ofRecord_toRecord, (h.isUtf8 path b hb).repaired_eq]

/-- A block that is put takes the place of the one with its path in both caches. -/
theorem Mirrors.put (h : Mirrors s c) {b : CachedBlock} (hkey : BlockStore.IsKey b.path)
    (hb : b.IsUtf8) :
    ∃ s', session.put s b = .ok s' ∧ Mirrors s' (c.put b) := by
  refine ⟨{ s with store.blocks := s.store.blocks.insert b.path b.toRecord }, ?_, h.isOpen, ?_, ?_, ?_⟩
  · simp only [session, StoreSession.update, h.isOpen, if_true, BlockCache.store, BlockStore.put,
      BlockStore.putRecord, BlockStore.keyFault?_eq_none hkey]
    rfl
  · rw [h.blocks]
    exact Bucket.insert_mapValues _ _ _ _
  · intro path b' hget
    rw [MemoryCache.put, Bucket.get?_insert] at hget
    split at hget
    · cases hget
      exact hb
    · exact h.isUtf8 path b' hget
  · exact h.ordered.insert b.path b

/-- The record and the block of a path go together. -/
theorem Mirrors.delete (h : Mirrors s c) (path : Text) :
    ∃ s', session.delete s path = .ok s' ∧ Mirrors s' (c.erase path) := by
  refine ⟨{ s with store := s.store.delete path }, ?_, h.isOpen, ?_, ?_, h.ordered.erase path⟩
  · simp only [session, StoreSession.update, h.isOpen, if_true, BlockCache.store]
    rfl
  · simp only [BlockStore.delete, h.blocks]
    exact Bucket.erase_mapValues _ _ _
  · intro path' b hget
    rw [Bucket.get?_erase] at hget
    split at hget
    · cases hget
    · exact h.isUtf8 path' b hget

theorem Mirrors.paths (h : Mirrors s c) : session.paths s = .ok c.keys := by
  simp only [session, StoreSession.query, h.isOpen, if_true, BlockCache.store, BlockStore.paths, h.blocks,
    Bucket.keys_mapValues]
  rfl

/-- Paths are listed in bytewise order. -/
def InOrder : CacheAnswer → Prop
  | .paths ps => ps.Pairwise Text.Precedes
  | _ => True

/-- **A call gets the same answer from both caches**, and the store goes on to mirror the memory. -/
theorem answer_mirrors (h : Mirrors s c) {call : CacheCall} (hfits : call.Fits) :
    ∃ a, InOrder a ∧ (session.answer s call).2 = .ok a ∧ (memory.answer c call).2 = .ok a ∧
      Mirrors (session.answer s call).1 (memory.answer c call).1 := by
  cases call with
  | get path =>
    refine ⟨.block (c.get? path).isSome ((c.get? path).getD {}), trivial, ?_, rfl, h⟩
    simp only [answer, h.get]
    rfl
  | put b =>
    obtain ⟨s', hput, hs'⟩ := h.put hfits.1 hfits.2
    refine ⟨.done, trivial, ?_, rfl, ?_⟩
    · simp only [answer, hput, changed]
    · simp only [answer, hput, changed]
      exact hs'
  | delete path =>
    obtain ⟨s', hdelete, hs'⟩ := h.delete path
    refine ⟨.done, trivial, ?_, rfl, ?_⟩
    · simp only [answer, hdelete, changed]
    · simp only [answer, hdelete, changed]
      exact hs'
  | paths =>
    refine ⟨.paths c.keys, h.ordered, ?_, rfl, h⟩
    simp only [answer, h.paths]
    rfl

/-- From states that mirror each other all answers are the same. -/
theorem answers_mirror (h : Mirrors s c) (steps : List StoreStep)
    (hfits : ∀ call ∈ steps.filterMap StoreStep.call?, call.Fits) :
    s.answers steps = memory.answers c (steps.filterMap StoreStep.call?) ∧
      ∀ r ∈ s.answers steps, ∃ a, r = .ok a ∧ InOrder a := by
  induction steps generalizing s c with
  | nil => exact ⟨rfl, List.forall_mem_nil _⟩
  | cons step steps ih =>
    cases step with
    | reopen =>
      have hrest := ih h.reopen hfits
      exact hrest
    | call call =>
      obtain ⟨hfirst, hothers⟩ := List.forall_mem_cons.mp hfits
      obtain ⟨a, horder, hstore, hmemory, hnext⟩ := answer_mirrors h hfirst
      obtain ⟨hsame, hall⟩ := ih hnext hothers
      constructor
      · rw [StoreSession.answers, hstore, hsame]
        exact (congrArg (· :: _) hmemory.symm)
      · exact List.forall_mem_cons.mpr ⟨⟨a, hstore, horder⟩, hall⟩

/-- **A store answers as a cache in memory does.** -/
theorem answers_eq_memory (steps : List StoreStep)
    (hfits : ∀ call ∈ steps.filterMap StoreStep.call?, call.Fits) :
    answers {} steps = memory.answers [] (steps.filterMap StoreStep.call?) ∧
      ∀ r ∈ answers {} steps, ∃ a, r = .ok a ∧ InOrder a :=
  answers_mirror mirrors_new steps hfits

/-- A block whose texts are escaped in its record, with a line separator and without a parent. -/
def markup : CachedBlock where
  path := "b<&>.js"
  hash := "0\t\"\\"
  block := "a\u2028b</script>\n"
  className := "B"
  methodCount := -9223372036854775808
  variableCount := 9223372036854775807

/-- Blocks that are put in the wrong order, replaced, deleted and kept while the store is closed. -/
def markupSteps : List StoreStep :=
  [.call (.put markup), .call (.put { markup with path := "a.js", parent := "A" }), .reopen,
    .call .paths, .call (.get markup.path), .call (.put { markup with block := "\u00e9" }),
    .call (.delete "a.js"), .reopen, .call (.get "a.js"), .call (.get markup.path), .call .paths]

theorem answers_eq_memory_markup :
    (∀ call ∈ markupSteps.filterMap StoreStep.call?, call.Fits) ∧
      answers {} markupSteps = memory.answers [] (markupSteps.filterMap StoreStep.call?) ∧
      memory.answers [] (markupSteps.filterMap StoreStep.call?) =
        [.ok .done, .ok .done, .ok (.paths ["a.js", markup.path]), .ok (.block true markup), .ok .done,
          .ok .done, .ok (.block false {}), .ok (.block true { markup with block := "\u00e9" }),
          .ok (.paths [markup.path])] := by
  have hfits : ∀ call ∈ markupSteps.filterMap StoreStep.call?, call.Fits := by decide +kernel
  exact ⟨hfits, (answers_eq_memory markupSteps hfits).1, by rfl⟩

end StoreSession

end StubDecl
