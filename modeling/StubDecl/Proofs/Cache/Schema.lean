import Mathlib.Tactic.Common
import StubDecl.Cache.Store

/-!
# Readying a store

A store names the version of its schema and the hash of the settings that its blocks belong to. It is
readied for settings in at most two steps: it is emptied, and it is made to name the settings. What a
store names is not touched by anything but the second of these.

Which of the steps are taken depends on what the store names alone: `BlockStore.Readied` lists the three
ways, and `BlockStore.prepareFor_cases` says that readying takes one of them. If it breaks off before all
of its steps have been committed, there are no other stores left behind than before, between and after
them (`BlockStore.commits_cases`).
-/

namespace StubDecl

theorem Settings.hash_ne_nil (settings : Settings) : settings.hash ≠ [] := by
  obtain ⟨b, t, hcons⟩ : ∃ b t, Sha256.digest settings.renderingRecord = b :: t := ⟨_, _, rfl⟩
  rw [hash, hcons]
  exact List.cons_ne_nil _ _

namespace BlockStore

theorem schema_migrateTo (s : BlockStore) (hash : Text) :
    (s.migrateTo hash).schema = ⟨currentVersion, hash⟩ := by
  have hversion : readVersion (Text.ofInt currentVersion.toInt) = currentVersion := by decide +kernel
  have hne : versionKey ≠ hashKey := by decide
  simp only [schema, migrateTo, setSchema, Bucket.get?_insert, if_neg hne, if_true, Option.map_some,
    Option.getD_some, hversion]

/-! ## What the single changes leave alone -/

@[simp] theorem schema_clear (s : BlockStore) : s.clear.schema = s.schema := by
  have hversion : versionKey ≠ lastRunKey := by decide
  have hhash : hashKey ≠ lastRunKey := by decide
  simp only [schema, clear, Bucket.get?_erase, if_neg hversion, if_neg hhash]

@[simp] theorem schema_setLastRun (s : BlockStore) (r : RunStats) :
    (s.setLastRun r).schema = s.schema := by
  have hversion : versionKey ≠ lastRunKey := by decide
  have hhash : hashKey ≠ lastRunKey := by decide
  simp only [schema, setLastRun, Bucket.get?_insert, if_neg hversion, if_neg hhash]

@[simp] theorem get?_lastRun_migrateTo (s : BlockStore) (hash : Text) :
    (s.migrateTo hash).stats.get? lastRunKey = s.stats.get? lastRunKey := by
  have hversion : lastRunKey ≠ versionKey := by decide
  have hhash : lastRunKey ≠ hashKey := by decide
  simp only [migrateTo, setSchema, Bucket.get?_insert, if_neg hversion, if_neg hhash]

@[simp] theorem get?_lastRun_clear (s : BlockStore) : s.clear.stats.get? lastRunKey = none := by
  simp only [clear, Bucket.get?_erase, if_true]

/-! ## What readying does -/

/-- The store was written by a newer program, or it names other settings. -/
def Foreign (s : BlockStore) (hash : Text) : Prop :=
  currentVersion < s.schema.version ∨ s.schema.hash ≠ [] ∧ s.schema.hash ≠ hash

/-- The store has the current schema, and it names these settings or none. -/
structure Settled (s : BlockStore) (hash : Text) : Prop where
  version : s.schema.version = currentVersion
  hash : s.schema.hash = [] ∨ s.schema.hash = hash

/-- The ways in which a store is readied, with the reason that is given. -/
inductive Readied (s : BlockStore) (hash : Text) : BlockStore × Text → Prop
  /-- A foreign store is emptied. -/
  | emptied {reason : Text} (h : s.Foreign hash) (hreason : reason ≠ []) :
      Readied s hash (s.clear.migrateTo hash, reason)
  /-- A store of an older schema is made to name the settings. -/
  | named (hold : s.schema.version < currentVersion) (h : ¬ s.Foreign hash) :
      Readied s hash (s.migrateTo hash, [])
  /-- Nothing has to be done. -/
  | kept (h : s.Settled hash) : Readied s hash (s, [])

variable {s : BlockStore} {hash : Text} {r : BlockStore × Text}

theorem checkFor_rebuild_iff : (s.checkFor hash).rebuild = true ↔ s.Foreign hash := by
  rw [checkFor, Foreign]
  dsimp only
  split
  · next hnewer => simp [hnewer]
  · next hnewer => simp [hnewer]

theorem checkFor_rebuild (h : ¬ s.Foreign hash) : (s.checkFor hash).rebuild = false :=
  Bool.eq_false_iff.mpr (mt checkFor_rebuild_iff.mp h)

theorem checkFor_reason_ne_nil (h : s.Foreign hash) : (s.checkFor hash).reason ≠ [] := by
  rw [checkFor]
  dsimp only
  split
  · simp [Text.ofString]
  · next hnewer =>
    rw [if_pos (by simpa using h.resolve_left hnewer)]
    simp [Text.ofString]

theorem checkFor_migrate (h : ¬ s.Foreign hash) :
    (s.checkFor hash).migrate = decide (s.schema.version < currentVersion) := by
  rw [checkFor]
  dsimp only
  rw [if_neg fun hnewer => h (.inl hnewer)]

theorem commits_of_foreign (h : s.Foreign hash) :
    s.commits hash = [s.clear, s.clear.migrateTo hash] := by
  simp only [commits, checkFor_rebuild_iff.mpr h, Bool.true_or, if_true, List.singleton_append]

theorem commits_of_not_foreign (h : ¬ s.Foreign hash) :
    s.commits hash = if s.schema.version < currentVersion then [s.migrateTo hash] else [] := by
  simp only [commits, checkFor_rebuild h, checkFor_migrate h, Bool.false_or, decide_eq_true_eq,
    Bool.false_eq_true, if_false, List.nil_append]

theorem prepareFor_of_foreign (h : s.Foreign hash) :
    s.prepareFor hash = (s.clear.migrateTo hash, (s.checkFor hash).reason) := by
  simp only [prepareFor, commits_of_foreign h, checkFor_rebuild_iff.mpr h, if_true]
  rfl

theorem prepareFor_of_not_foreign (h : ¬ s.Foreign hash) :
    s.prepareFor hash = (if s.schema.version < currentVersion then s.migrateTo hash else s, []) := by
  simp only [prepareFor, commits_of_not_foreign h, checkFor_rebuild h, Bool.false_eq_true, if_false]
  split <;> rfl

/-- A store is emptied, made to name the settings, or kept. -/
theorem prepareFor_cases (s : BlockStore) (hash : Text) : Readied s hash (s.prepareFor hash) := by
  by_cases h : s.Foreign hash
  · rw [prepareFor_of_foreign h]
    exact .emptied h (checkFor_reason_ne_nil h)
  · rw [prepareFor_of_not_foreign h]
    split
    · next hold => exact .named hold h
    · next hold =>
      obtain ⟨hnewer, hhash⟩ := not_or.mp h
      exact .kept ⟨Int64.le_antisymm (Int64.not_lt.mp hnewer) (Int64.not_lt.mp hold), by tauto⟩

/-- Wherever readying breaks off, the store is as it was, or empty and named as it was, or ready. -/
theorem commits_cases (s : BlockStore) (hash : Text) (n : Nat) :
    ((s.commits hash).take n).getLastD s = s ∨
      ((s.commits hash).take n).getLastD s = s.clear ∨
      ((s.commits hash).take n).getLastD s = (s.prepareFor hash).1 := by
  by_cases h : s.Foreign hash
  · rw [commits_of_foreign h, prepareFor_of_foreign h]
    obtain _ | _ | n := n <;> simp
  · rw [commits_of_not_foreign h, prepareFor_of_not_foreign h]
    split
    · obtain _ | n := n <;> simp
    · simp

/-! ## Stores that are settled -/

theorem settled_migrateTo (s : BlockStore) (hash : Text) : (s.migrateTo hash).Settled hash where
  version := by rw [schema_migrateTo]
  hash := by rw [schema_migrateTo]; exact .inr rfl

theorem Settled.not_foreign (h : s.Settled hash) : ¬ s.Foreign hash := by
  rintro (hnewer | ⟨hne, hother⟩)
  · rw [h.version] at hnewer
    exact absurd hnewer (by decide)
  · exact h.hash.elim hne hother

theorem Settled.checkFor (h : s.Settled hash) :
    (s.checkFor hash).migrate = false ∧ (s.checkFor hash).rebuild = false := by
  rw [checkFor_migrate h.not_foreign, h.version]
  exact ⟨by decide, checkFor_rebuild h.not_foreign⟩

/-- Nothing is done to a store that is settled. -/
theorem Settled.prepareFor (h : s.Settled hash) : s.prepareFor hash = (s, []) := by
  have hcurrent : ¬ s.schema.version < currentVersion := by
    rw [h.version]
    exact Int64.lt_irrefl
  rw [prepareFor_of_not_foreign h.not_foreign, if_neg hcurrent]

theorem Readied.settled (h : Readied s hash r) : r.1.Settled hash := by
  cases h with
  | emptied | named => exact settled_migrateTo _ hash
  | kept h => exact h

/-- A store that has been readied names the settings, unless it was of the current schema and named
none before. -/
theorem Readied.schema (h : Readied s hash r) (hs : s.schema ≠ ⟨currentVersion, []⟩) :
    r.1.schema = ⟨currentVersion, hash⟩ := by
  cases h with
  | emptied | named => exact schema_migrateTo _ hash
  | kept h =>
    rw [← h.version] at hs ⊢
    obtain hnil | hhash := h.hash
    · exact absurd (by rw [← hnil]) hs
    · rw [← hhash]

/-- A store that names other settings loses its blocks, and is kept otherwise; afterwards it names the
settings it was readied for. -/
theorem prepareFor_eq (s : BlockStore) (hash : Text)
    (h : s = {} ∨ ∃ old ≠ [], s.schema = ⟨currentVersion, old⟩) :
    (s.prepareFor hash).1.schema = ⟨currentVersion, hash⟩ ∧
      ((s.prepareFor hash).1.blocks = [] ∨
        (s.prepareFor hash).1 = s ∧ s.schema = ⟨currentVersion, hash⟩) := by
  have hs : s.schema ≠ ⟨currentVersion, []⟩ := by
    obtain rfl | ⟨old, hne, hschema⟩ := h
    · decide
    · rw [hschema]
      exact fun heq => hne (SchemaInfo.mk.inj heq).2
  have hready := prepareFor_cases s hash
  have hschema := hready.schema hs
  refine ⟨hschema, ?_⟩
  generalize s.prepareFor hash = r at hready hschema ⊢
  cases hready with
  | emptied => exact .inl rfl
  | named hold =>
    obtain rfl | ⟨old, -, hold'⟩ := h
    · exact .inl rfl
    · rw [hold'] at hold
      exact absurd hold Int64.lt_irrefl
  | kept => exact .inr ⟨rfl, hschema⟩

end BlockStore

end StubDecl
