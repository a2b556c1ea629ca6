import StubDecl.Proofs.Cache.Schema

/-!
# Changed settings

A store is emptied only for a reason that is given, and readying it once more does nothing
(`StoreSession.prepare_settles`). So a change of the settings empties a store, whatever it held and
whatever its records were, with one exception: a store of the current schema that names no settings is
taken for one of every settings, and its readying leaves it so (`StoreSession.change_empties_iff`).
-/

namespace StubDecl

namespace StoreSession

open BlockStore

variable {s s' : StoreSession} {settings : Settings} {reason : Text}

/-- A session can be readied if its store is open, and nothing else about it changes. -/
theorem prepare_eq_ok_iff : s.prepare settings = .ok (s', reason) ↔
    s.isOpen = true ∧ s' = { s with store := (s.store.prepareFor settings.hash).1 } ∧
      reason = (s.store.prepareFor settings.hash).2 := by
  obtain ⟨store, isOpen⟩ := s
  cases isOpen with
  | false => exact iff_of_false nofun fun h => Bool.false_ne_true h.1
  | true =>
    have hready : prepare ⟨store, true⟩ settings =
        .ok (⟨(store.prepareFor settings.hash).1, true⟩, (store.prepareFor settings.hash).2) := rfl
    rw [hready, Except.ok.injEq, Prod.mk.injEq, and_iff_right rfl, eq_comm, @eq_comm _ reason]

/-- The store of a readied session has been readied. -/
theorem readied (h : s.prepare settings = .ok (s', reason)) :
    Readied s.store settings.hash (s'.store, reason) := by
  obtain ⟨-, rfl, rfl⟩ := prepare_eq_ok_iff.mp h
  exact prepareFor_cases s.store settings.hash

theorem isOpen_of_prepare (h : s.prepare settings = .ok (s', reason)) :
    s.isOpen = true ∧ s'.isOpen = true := by
  obtain ⟨hopen, rfl, -⟩ := prepare_eq_ok_iff.mp h
  exact ⟨hopen, hopen⟩

/-- Nothing is done to an open store that is settled. -/
theorem prepare_of_settled (hopen : s.isOpen = true) (h : s.store.Settled settings.hash) :
    s.prepare settings = .ok (s, []) :=
  prepare_eq_ok_iff.mpr ⟨hopen, by rw [h.prepareFor], by rw [h.prepareFor]⟩

theorem check_of_settled (hopen : s.isOpen = true) (h : s.store.Settled settings.hash) :
    ∃ c, s.check settings = .ok c ∧ c.migrate = false ∧ c.rebuild = false := by
  refine ⟨s.store.checkFor settings.hash, ?_, h.checkFor⟩
  simp only [check, query, hopen, if_true]
  rfl

/-- **Readying clears a store only with a reason, and settles it.** Without a reason the blocks and the
last run are what they were; with one there are none, and the store names the settings. Afterwards nothing
is left to do: neither a migration nor a rebuild is asked for, and readying the store again gives no reason
and changes nothing. -/
theorem prepare_settles (h : s.prepare settings = .ok (s', reason)) :
    (reason = [] → s'.store.blocks = s.store.blocks ∧
      s'.store.stats.get? lastRunKey = s.store.stats.get? lastRunKey) ∧
    (reason ≠ [] → s'.store.blocks = [] ∧ s'.store.stats.get? lastRunKey = none ∧
      s'.store.schema = ⟨currentVersion, settings.hash⟩) ∧
    (∃ c, s'.check settings = .ok c ∧ c.migrate = false ∧ c.rebuild = false) ∧
    s'.prepare settings = .ok (s', []) := by
  have hready := readied h
  obtain ⟨-, hopen⟩ := isOpen_of_prepare h
  have hsettled : s'.store.Settled settings.hash := hready.settled
  refine ⟨fun hnil => ?_, fun hne => ?_, check_of_settled hopen hsettled,
    prepare_of_settled hopen hsettled⟩
  · generalize s'.store = t at hready
    cases hready with
    | emptied _ hreason => exact absurd hnil hreason
    | named => exact ⟨rfl, get?_lastRun_migrateTo _ _⟩
    | kept => exact ⟨rfl, rfl⟩
  · generalize s'.store = t at hready
    cases hready with
    | emptied => exact ⟨rfl, by simp, schema_migrateTo _ _⟩
    | named | kept => exact absurd rfl hne

/-- A store of a newer program, with a block and a last run. -/
def ofNewerProgram : StoreSession where
  store := {
    blocks := [("A.js", "\x7b\x7d")]
    stats := [("config_hash", "0123456789abcdef"), ("last_run", "\x7b\x7d"), ("schema_version", "2")] }

theorem prepare_settles_ofNewerProgram :
    ∃ s', ofNewerProgram.prepare {} = .ok (s', "cache created by newer version (v2 > v1)") ∧
      s'.store.blocks = [] ∧ s'.store.stats.get? lastRunKey = none ∧
      s'.store.schema = ⟨currentVersion, ({} : Settings).hash⟩ ∧ s'.prepare {} = .ok (s', []) := by
  have hreason : (ofNewerProgram.store.prepareFor ({} : Settings).hash).2 =
      "cache created by newer version (v2 > v1)" := by decide +kernel
  have h : ofNewerProgram.prepare {} = .ok (_, "cache created by newer version (v2 > v1)") :=
    prepare_eq_ok_iff.mpr ⟨rfl, rfl, hreason.symm⟩
  obtain ⟨-, hcleared, -, hagain⟩ := prepare_settles h
  obtain ⟨hblocks, hlast, hschema⟩ := hcleared (by decide)
  exact ⟨_, h, hblocks, hlast, hschema, hagain⟩

/-! ## Two settings one after the other -/

/-- A store that names other settings is emptied. -/
theorem emptied_of_named {hash : Text} (h : s.prepare settings = .ok (s', reason))
    (hs : s.store.schema = ⟨currentVersion, hash⟩) (hne : hash ≠ []) (hother : hash ≠ settings.hash) :
    s'.store.blocks = [] ∧ s'.store.stats.get? lastRunKey = none ∧
      s'.store.schema = ⟨currentVersion, settings.hash⟩ := by
  have hforeign : s.store.Foreign settings.hash := .inr (by rw [hs]; exact ⟨hne, hother⟩)
  have hready := readied h
  generalize s'.store = t at hready ⊢
  cases hready with
  | emptied => exact ⟨rfl, by simp, schema_migrateTo _ _⟩
  | named _ hkept => exact absurd hforeign hkept
  | kept hsettled => exact absurd hforeign hsettled.not_foreign

/-- A store of the current schema that names no settings stays as it is. -/
theorem prepare_of_unnamed (h : s.prepare settings = .ok (s', reason))
    (hs : s.store.schema = ⟨currentVersion, []⟩) : s' = s ∧ reason = [] := by
  have hsettled : s.store.Settled settings.hash := ⟨by rw [hs], .inl (by rw [hs])⟩
  rw [prepare_of_settled (isOpen_of_prepare h).1 hsettled] at h
  cases h
  exact ⟨rfl, rfl⟩

/-- **When a change of the settings empties a store.** Let a store be readied for settings and then for
settings with another hash. It holds no blocks and no last run afterwards and names the second settings,
unless it was of the current schema and named no settings at first. Such a store stays as it was, blocks
included, and no reason is given. -/
theorem change_empties_iff {s₁ s₂ : StoreSession} {settings₁ settings₂ : Settings}
    {reason₁ reason₂ : Text} (hne : settings₁.hash ≠ settings₂.hash)
    (h₁ : s.prepare settings₁ = .ok (s₁, reason₁)) (h₂ : s₁.prepare settings₂ = .ok (s₂, reason₂)) :
    (s₂.store.blocks = [] ∧ s₂.store.stats.get? lastRunKey = none ∧
        s₂.store.schema = ⟨currentVersion, settings₂.hash⟩ ↔
      s.store.schema ≠ ⟨currentVersion, []⟩) ∧
    (s.store.schema = ⟨currentVersion, []⟩ → s₂ = s ∧ reason₁ = [] ∧ reason₂ = []) := by
  have hunnamed : s.store.schema = ⟨currentVersion, []⟩ → s₂ = s ∧ reason₁ = [] ∧ reason₂ = [] := by
    intro hs
    obtain ⟨rfl, hreason₁⟩ := prepare_of_unnamed h₁ hs
    obtain ⟨rfl, hreason₂⟩ := prepare_of_unnamed h₂ hs
    exact ⟨rfl, hreason₁, hreason₂⟩
  refine ⟨⟨?_, fun hs => ?_⟩, hunnamed⟩
  · rintro ⟨-, -, hschema⟩ hs
    rw [(hunnamed hs).1, hs] at hschema
    exact settings₂.hash_ne_nil (SchemaInfo.mk.inj hschema).2.symm
  · exact emptied_of_named h₂ ((readied h₁).schema hs) settings₁.hash_ne_nil hne

/-- A store of the current schema with a block, but without a hash. -/
def unnamed : StoreSession where
  store := { blocks := [("A.js", "\x7b\x7d")], stats := [("schema_version", "1")] }

theorem change_empties_iff_unnamed :
    ∃ s₁ s₂ reason₁ reason₂, ({} : Settings).hash ≠ ({ render := { indent := 2 } } : Settings).hash ∧
      unnamed.prepare {} = .ok (s₁, reason₁) ∧
      s₁.prepare { render := { indent := 2 } } = .ok (s₂, reason₂) ∧
      (s₂.store.get "A.js").isSome = true ∧ reason₂ = [] := by
  have hne : ({} : Settings).hash ≠ ({ render := { indent := 2 } } : Settings).hash := by
    decide +kernel
  have hschema : unnamed.store.schema = ⟨currentVersion, []⟩ := by decide +kernel
  obtain ⟨hsame, -, hreason⟩ := (change_empties_iff hne
    (prepare_eq_ok_iff.mpr ⟨rfl, rfl, rfl⟩ : unnamed.prepare {} = _)
    (prepare_eq_ok_iff.mpr ⟨rfl, rfl, rfl⟩)).2 hschema
  exact ⟨_, _, _, _, hne, prepare_eq_ok_iff.mpr ⟨rfl, rfl, rfl⟩, prepare_eq_ok_iff.mpr ⟨rfl, rfl, rfl⟩,
    by rw [hsame]; rfl, hreason⟩

end StoreSession

end StubDecl
