import StubDecl.Proofs.Cache.Record
import StubDecl.Proofs.Cache.Schema

/-!
# Where the blocks of a store come from

A store lives through visits. A visit opens the store and readies it for settings; it may break off
there, between any two of the changes that are committed, and then does nothing more. Otherwise the
store is used at will: blocks are looked up, put and deleted, the store is emptied, the statistics of a
run are recorded, and the store is closed and opened again.

`StoreVisit.Stamped` is what holds between visits: the store is new or names settings, and each of its
blocks is the last one that was put under its path, in a visit for settings that have the hash which the
store names. A visit keeps this, wherever it ends (`StoreVisit.stamped_next`).
-/

namespace StubDecl

/-- What is done with a store that has been readied. -/
inductive StoreUse where
  | get (path : Text)
  | put (b : CachedBlock)
  | delete (path : Text)
  | clear
  | setLastRun (r : RunStats)
  | reopen
  deriving DecidableEq, Repr

/-- A visit to a store: its settings, and what is done once the store is ready. A broken visit ends
when so many of the changes that ready the store have been committed. -/
inductive StoreVisit where
  | broken (settings : Settings) (committed : Nat)
  | completed (settings : Settings) (uses : List StoreUse)
  deriving DecidableEq, Repr

/-- A block that was put into a store, and the settings of the visit that did it. -/
structure Origin where
  settings : Settings
  block : CachedBlock
  deriving DecidableEq, Repr

namespace StoreUse

/-- The session after an open store has been changed; a change that is refused changes nothing. -/
def change (s : StoreSession) (f : BlockStore → Outcome BlockStore) : StoreSession :=
  match s.update f with
  | .ok s' => s'
  | .error _ => s

/-- The session after a store has been used. -/
def next (s : StoreSession) : StoreUse → StoreSession
  | .get _ => s
  | .put b => change s fun t => t.put b
  | .delete path => change s fun t => .ok (t.delete path)
  | .clear => change s fun t => .ok t.clear
  | .setLastRun r => change s fun t => .ok (t.setLastRun r)
  | .reopen => s.close.reopen

/-- The block that is put, unless its path cannot be a key. -/
def origin? (settings : Settings) : StoreUse → Option Origin
  | .put b => if (BlockStore.keyFault? b.path).isNone then some ⟨settings, b⟩ else none
  | _ => none

end StoreUse

namespace StoreVisit

/-- The session after a visit. -/
def next (s : StoreSession) : StoreVisit → StoreSession
  | .broken settings committed =>
    { store := ((s.store.commits settings.hash).take committed).getLastD s.store, isOpen := false }
  | .completed settings uses =>
    match s.reopen.prepare settings with
    | .ok (ready, _) => (uses.foldl StoreUse.next ready).close
    | .error _ => s

/-- The session after visits to a store that was new at first. -/
def after (visits : List StoreVisit) : StoreSession := visits.foldl next { isOpen := false }

/-- The blocks that a visit puts, in order. -/
def origins : StoreVisit → List Origin
  | .broken _ _ => []
  | .completed settings uses => uses.filterMap (StoreUse.origin? settings)

/-- The last of the blocks that were put under a path. -/
def lastPut? (puts : List Origin) (path : Text) : Option Origin :=
  (puts.filter (·.block.path = path)).getLast?

theorem lastPut?_concat (puts : List Origin) (o : Origin) (path : Text) :
    lastPut? (puts ++ [o]) path = if o.block.path = path then some o else lastPut? puts path := by
  by_cases h : o.block.path = path <;> simp [lastPut?, List.filter_append, h]

/-- A block that was put has been put in a completed visit. -/
theorem put_of_lastPut? {visits : List StoreVisit} {path : Text} {o : Origin}
    (h : lastPut? (visits.flatMap origins) path = some o) :
    ∃ uses, .completed o.settings uses ∈ visits ∧ .put o.block ∈ uses := by
  obtain ⟨hmem, -⟩ := List.mem_filter.mp (List.mem_of_getLast? h)
  obtain ⟨v, hv, ho⟩ := List.mem_flatMap.mp hmem
  obtain _ | ⟨settings, uses⟩ := v
  · cases ho
  · obtain ⟨u, hu, horigin⟩ := List.mem_filterMap.mp ho
    cases u with
    | put b =>
      rw [StoreUse.origin?] at horigin
      split at horigin
      · cases horigin
        exact ⟨uses, hv, hu⟩
      · cases horigin
    | get | delete | clear | setLastRun | reopen => cases horigin

/-- Each block of the store is the last one that was put under its path, for settings with this
hash. -/
def Belong (puts : List Origin) (hash : Text) (t : BlockStore) : Prop :=
  ∀ path record, t.blocks.get? path = some record →
    ∃ o, lastPut? puts path = some o ∧ record = o.block.toRecord ∧ o.settings.hash = hash

theorem belong_of_blocks_nil {puts : List Origin} {hash : Text} {t : BlockStore} (h : t.blocks = []) :
    Belong puts hash t := by
  intro path record hget
  rw [h] at hget
  cases hget

/-- The store names these settings, and its blocks were put for such settings. -/
structure Ready (puts : List Origin) (hash : Text) (s : StoreSession) : Prop where
  isOpen : s.isOpen = true
  schema : s.store.schema = ⟨BlockStore.currentVersion, hash⟩
  belong : Belong puts hash s.store

/-- The store is new, or it names settings and its blocks were put for such settings. -/
def Stamped (puts : List Origin) (t : BlockStore) : Prop :=
  t = {} ∨ ∃ hash ≠ [], t.schema = ⟨BlockStore.currentVersion, hash⟩ ∧ Belong puts hash t

/-! ## Using a store -/

variable {puts : List Origin} {settings : Settings} {s : StoreSession} {t : BlockStore}

/-- A change that never fails and removes blocks at most. -/
theorem Ready.change (h : Ready puts settings.hash s) {f : BlockStore → BlockStore}
    (hschema : (f s.store).schema = s.store.schema)
    (hblocks : ∀ path record, (f s.store).blocks.get? path = some record →
      s.store.blocks.get? path = some record) :
    Ready puts settings.hash (StoreUse.change s fun t => .ok (f t)) := by
  have hs : StoreUse.change s (fun t => .ok (f t)) = { s with store := f s.store } := by
    simp only [StoreUse.change, StoreSession.update, h.isOpen, if_true, Except.map]
  rw [hs]
  exact ⟨h.isOpen, hschema.trans h.schema, fun path record hget => h.belong path record (hblocks _ _ hget)⟩

theorem next_put (hopen : s.isOpen = true) (b : CachedBlock) :
    StoreUse.next s (.put b) = match BlockStore.keyFault? b.path with
      | some _ => s
      | none => { s with store.blocks := s.store.blocks.insert b.path b.toRecord } := by
  simp only [StoreUse.next, StoreUse.change, StoreSession.update, hopen, if_true, BlockStore.put,
    BlockStore.putRecord]
  cases BlockStore.keyFault? b.path <;> simp [Except.map, bind, Except.bind, pure, Except.pure, ← hopen]

/-- The block that is put is the last one that was put under its path. -/
theorem Ready.put (h : Ready puts settings.hash s) (b : CachedBlock) :
    Ready (puts ++ (StoreUse.origin? settings (.put b)).toList) settings.hash
      (StoreUse.next s (.put b)) := by
  rw [next_put h.isOpen, StoreUse.origin?]
  cases BlockStore.keyFault? b.path with
  | some f => simpa using h
  | none =>
    refine ⟨h.isOpen, h.schema, fun path record hget => ?_⟩
    simp only [Bucket.get?_insert] at hget
    simp only [Option.isNone_none, if_true, Option.toList_some, lastPut?_concat]
    split at hget
    · next hp =>
      rw [if_pos hp.symm]
      exact ⟨_, rfl, (Option.some.inj hget).symm, rfl⟩
    · next hp =>
      rw [if_neg fun hp' => hp hp'.symm]
      exact h.belong path record hget

/-- Every use keeps a store ready. -/
theorem ready_use (h : Ready puts settings.hash s) (u : StoreUse) :
    Ready (puts ++ (u.origin? settings).toList) settings.hash (u.next s) := by
  by_cases hput : ∃ b, u = .put b
  · obtain ⟨b, rfl⟩ := hput
    exact h.put b
  · have hnone : (u.origin? settings).toList = [] := by
      cases u with
      | put b => exact absurd ⟨b, rfl⟩ hput
      | get | delete | clear | setLastRun | reopen => rfl
    rw [hnone, List.append_nil]
    cases u with
    | get path => exact h
    | put b => exact absurd ⟨b, rfl⟩ hput
    | delete path =>
      refine h.change (f := fun t => t.delete path) rfl fun p record hget => ?_
      simp only [BlockStore.delete, Bucket.get?_erase] at hget
      split at hget
      · cases hget
      · exact hget
    | clear =>
      refine h.change (BlockStore.schema_clear _) fun p record hget => ?_
      cases hget
    | setLastRun r =>
      exact h.change (f := fun t => t.setLastRun r) (BlockStore.schema_setLastRun _ r)
        fun _ _ hget => hget
    | reopen => exact ⟨rfl, h.schema, h.belong⟩

/-- Any uses keep a store ready. -/
theorem ready_uses (uses : List StoreUse) (h : Ready puts settings.hash s) :
    Ready (puts ++ uses.filterMap (StoreUse.origin? settings)) settings.hash
      (uses.foldl StoreUse.next s) := by
  induction uses generalizing puts s with
  | nil => simpa using h
  | cons u uses ih =>
    have hnext := ih (ready_use h u)
    have happ : puts ++ (u :: uses).filterMap (StoreUse.origin? settings) =
        puts ++ (u.origin? settings).toList ++ uses.filterMap (StoreUse.origin? settings) := by
      cases hu : u.origin? settings <;> simp [hu]
    rw [happ]
    exact hnext

/-! ## Visits -/

theorem Stamped.named (h : Stamped puts t) :
    t = {} ∨ ∃ old ≠ [], t.schema = ⟨BlockStore.currentVersion, old⟩ :=
  h.imp_right fun ⟨hash, hne, hschema, _⟩ => ⟨hash, hne, hschema⟩

/-- A stamped store that has been readied for settings is ready for them. -/
theorem Stamped.prepare (h : Stamped puts s.store) (settings : Settings) :
    ∃ ready reason, s.reopen.prepare settings = .ok (ready, reason) ∧
      ready.store = (s.store.prepareFor settings.hash).1 ∧ Ready puts settings.hash ready := by
  obtain ⟨hschema, hblocks⟩ := s.store.prepareFor_eq settings.hash h.named
  refine ⟨_, _, rfl, rfl, rfl, hschema, ?_⟩
  obtain hnil | ⟨hkept, hsame⟩ := hblocks
  · exact belong_of_blocks_nil hnil
  · -- the store was kept, so it named these settings before
    have hbelong : Belong puts settings.hash s.store := by
      obtain hnew | ⟨hash, -, hschema', hbelong⟩ := h
      · exact belong_of_blocks_nil (by rw [hnew])
      · obtain ⟨-, rfl⟩ := SchemaInfo.mk.inj (hschema'.symm.trans hsame)
        exact hbelong
    have hstore : (s.store.prepareFor settings.hash).1 = s.store := hkept
    intro path record hget
    exact hbelong path record (hstore ▸ hget)

theorem Ready.stamped (h : Ready puts settings.hash s) : Stamped puts s.store :=
  .inr ⟨_, settings.hash_ne_nil, h.schema, h.belong⟩

/-- An emptied store names what it named before. -/
theorem Stamped.clear (h : Stamped puts t) : Stamped puts t.clear := by
  obtain rfl | ⟨hash, hne, hschema, -⟩ := h
  · exact .inl rfl
  · exact .inr ⟨hash, hne, (BlockStore.schema_clear t).trans hschema, belong_of_blocks_nil rfl⟩

/-- **A visit leaves the store stamped**, wherever it ends. -/
theorem stamped_next (v : StoreVisit) (h : Stamped puts s.store) :
    Stamped (puts ++ v.origins) (v.next s).store := by
  obtain ⟨settings, committed⟩ | ⟨settings, uses⟩ := v
  · rw [origins, List.append_nil]
    obtain hsame | hclear | hready := s.store.commits_cases settings.hash committed
    · simpa only [next, hsame] using h
    · simpa only [next, hclear] using h.clear
    · obtain ⟨ready, -, -, hstore, hr⟩ := h.prepare settings
      have hstamped := hr.stamped
      simpa only [next, hready, ← hstore] using hstamped
  · obtain ⟨ready, reason, hprep, -, hr⟩ := h.prepare settings
    have huses := (ready_uses uses hr).stamped
    simp only [next, hprep, origins]
    exact huses

theorem stamped_visits (visits : List StoreVisit) (h : Stamped puts s.store) :
    Stamped (puts ++ visits.flatMap origins) (visits.foldl next s).store := by
  induction visits generalizing puts s with
  | nil => simpa using h
  | cons v visits ih =>
    have hnext := ih (stamped_next v h)
    simpa using hnext

/-- **The blocks of a store belong to the settings it names.** Let visits be made to a store that was
new at first, each of them broken off while the store was readied or completed; a state inside a visit is
the one behind a visit that ends there. Then each block in the store is the last one that was put under
its path, and this was done in a visit that had completed readying the store for settings with the
recorded hash. And whenever readying completes, the store names the current schema and the hash of the
settings it was readied for. -/
theorem blocks_belong_to_settings (visits : List StoreVisit) :
    (∀ path record, (after visits).store.blocks.get? path = some record →
      ∃ o, lastPut? (visits.flatMap origins) path = some o ∧ record = o.block.toRecord ∧
        o.settings.hash = (after visits).store.schema.hash ∧
        ∃ uses, .completed o.settings uses ∈ visits ∧ .put o.block ∈ uses) ∧
    ∀ settings, ∃ ready reason, (after visits).reopen.prepare settings = .ok (ready, reason) ∧
      ready.store.schema = ⟨BlockStore.currentVersion, settings.hash⟩ := by
  have h : Stamped (visits.flatMap origins) (after visits).store :=
    stamped_visits visits (.inl rfl : Stamped [] ({ isOpen := false } : StoreSession).store)
  refine ⟨fun path record hget => ?_, fun settings => ?_⟩
  · obtain hnew | ⟨hash, -, hschema, hbelong⟩ := h
    · rw [hnew] at hget
      cases hget
    · obtain ⟨o, hlast, hrecord, hhash⟩ := hbelong path record hget
      rw [hschema]
      exact ⟨o, hlast, hrecord, hhash, put_of_lastPut? hlast⟩
  · obtain ⟨ready, reason, hprep, -, hr⟩ := h.prepare settings
    exact ⟨ready, reason, hprep, hr.schema⟩

end StoreVisit

end StubDecl
