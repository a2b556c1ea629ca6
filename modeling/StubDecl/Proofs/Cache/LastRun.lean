import StubDecl.Project.Convert
import StubDecl.Proofs.Cache.Record
import StubDecl.Proofs.Cache.Schema
import StubDecl.Proofs.Run.Visit
import StubDecl.Run.Report

/-!
# The record of the last run

The statistics of a run come back from their record as they were (`RunStats.ofRecord_toRecord`). In a store
the record is touched by recording another run, and by emptying the store, which only readying does, for a
reason (`BlockStore.lastRecord?_prepareFor`). A run itself leaves it alone, whatever fails on the way
(`Job.stats_run`).
-/

namespace StubDecl

namespace RunStats

open Json

/-- The fields of statistics but the first. -/
def entries (s : RunStats) : List Entry :=
  [Entry.number "FilesCached" s.cached, Entry.number "FilesPruned" s.pruned,
    Entry.number "Classes" s.classCount, Entry.number "Methods" s.methodCount,
    Entry.number "Variables" s.variableCount, Entry.number "BytesWritten" s.bytes]

theorem toRecord_eq (s : RunStats) :
    s.toRecord = Record.object ((Entry.number "FilesConverted" s.converted :: s.entries).map Entry.field) :=
  rfl

/-- Every number of a record is read into its field. -/
theorem readMember_number (s : RunStats) (n : Int64) :
    let read (name : Text) := readMember s (Entry.number name n).member.1 (Entry.number name n).member.2
    read "FilesConverted" = ({ s with converted := n }, true) ∧
      read "FilesCached" = ({ s with cached := n }, true) ∧
      read "FilesPruned" = ({ s with pruned := n }, true) ∧
      read "Classes" = ({ s with classCount := n }, true) ∧
      read "Methods" = ({ s with methodCount := n }, true) ∧
      read "Variables" = ({ s with variableCount := n }, true) ∧
      read "BytesWritten" = ({ s with bytes := n }, true) := by
  refine ⟨?_, ?_, ?_, ?_, ?_, ?_, ?_⟩ <;>
    · simp only [readMember, Entry.number, Entry.member, readNumber_number]
      rfl

/-- Statistics come back from their record as they were. -/
theorem ofRecord_toRecord (s : RunStats) : ofRecord s.toRecord = (s, true) := by
  rw [ofRecord, Record.read, toRecord_eq, parse_object, entries]
  simp only [List.map_cons, List.map_nil, List.foldl_cons, List.foldl_nil, readMember_number, Bool.and_self]

/-- Nothing is said about a run without files before. -/
theorem delta_empty (s : RunStats) : ({} : RunStats).delta s = [] := rfl

end RunStats

namespace BlockStore

/-- The record of the last run, if there is one. -/
def lastRecord? (s : BlockStore) : Option Text := s.stats.get? lastRunKey

variable {s : BlockStore}

theorem lastRecord?_setLastRun (s : BlockStore) (r : RunStats) :
    (s.setLastRun r).lastRecord? = some r.toRecord := by
  rw [lastRecord?, setLastRun, Bucket.get?_insert, if_pos rfl]

theorem lastRecord?_clear (s : BlockStore) : s.clear.lastRecord? = none := get?_lastRun_clear s

theorem lastRecord?_migrateTo (s : BlockStore) (hash : Text) :
    (s.migrateTo hash).lastRecord? = s.lastRecord? := get?_lastRun_migrateTo s hash

/-- Readying a store deletes the record just if a reason is given. -/
theorem lastRecord?_prepareFor (s : BlockStore) (hash : Text) :
    (s.prepareFor hash).1.lastRecord? = if (s.prepareFor hash).2 = [] then s.lastRecord? else none := by
  have hready := prepareFor_cases s hash
  generalize s.prepareFor hash = r at hready ⊢
  cases hready with
  | emptied _ hreason => rw [if_neg hreason, lastRecord?_migrateTo, lastRecord?_clear]
  | named => rw [if_pos rfl, lastRecord?_migrateTo]
  | kept => rw [if_pos rfl]

/-- Where readying breaks off, the record is deleted just if the store has been emptied by then. -/
theorem lastRecord?_commits (s : BlockStore) (hash : Text) (n : Nat) :
    (((s.commits hash).take n).getLastD s).lastRecord? =
      if (s.checkFor hash).rebuild && 0 < n then none else s.lastRecord? := by
  by_cases h : s.Foreign hash
  · rw [commits_of_foreign h, checkFor_rebuild_iff.mpr h]
    obtain _ | _ | n := n <;> simp [lastRecord?_clear, lastRecord?_migrateTo]
  · rw [commits_of_not_foreign h, checkFor_rebuild h]
    split
    · obtain _ | n := n <;> simp [lastRecord?_migrateTo]
    · simp

/-- What a run is compared with, given the record of the run before. -/
theorem lastRun?_of_lastRecord? {last : Option RunStats} (h : s.lastRecord? = last.map RunStats.toRecord) :
    Project.lastRun? s = some (last.getD {}) := by
  rw [lastRecord?] at h
  cases last with
  | none => simp only [Project.lastRun?, lastRun, h, Option.map_none, Option.getD_none]
  | some r =>
    simp only [Project.lastRun?, lastRun, h, Option.map_some, RunStats.ofRecord_toRecord, Option.getD_some]

end BlockStore

/-- **A run leaves the second bucket of its store alone**, wherever it ends and whatever fails. -/
theorem Job.stats_run {j : Job BlockStore} {faults : BlockCache.Faults} {failure : Failure}
    (hj : j.cache = some (BlockCache.store.faulty faults failure)) (w : Surroundings)
    (found : Outcome (List SourceFile)) (s : BlockStore) : (j.run w found s).cache.stats = s.stats := by
  have hknown : ∀ v ∈ j.runVisits w found s, v.content ∈ (Set.univ : Set Text) := fun _ _ => Set.mem_univ _
  refine run_induction (P := fun t => t.stats = s.stats) hj ?put ?delete rfl hknown
  case put =>
    intro c c' path t b _ _ hput hc
    obtain rfl := BlockStore.put_eq_ok hput
    exact hc
  case delete =>
    intro c c' p hdelete hc
    cases hdelete
    exact hc

end StubDecl
