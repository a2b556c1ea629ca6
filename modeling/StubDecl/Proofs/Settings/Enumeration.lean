import StubDecl.Proofs.Cache.Change
import StubDecl.Proofs.Settings.Hash

/-!
# The hash does not depend on how overrides are listed

Overrides are a finite map, and its entries come in any order. Two lists of entries of one map are
permutations of each other (`TextMap.SameMap.perm`), so their equations are sorted into one list, even
if two entries give the same equation. Nothing else of the settings goes into the hash but the
indentation and the rest type. A store that has been readied for settings is therefore kept whole for
all settings that shape blocks in the same way (`Settings.SameShape.keeps_store`).
-/

namespace StubDecl

namespace TextMap

/-- Both lists have the entries of one finite map: no key comes twice, and every key has the same value
in both. -/
structure SameMap (o o' : TextMap) : Prop where
  nodup : (o.map Prod.fst).Nodup
  nodup' : (o'.map Prod.fst).Nodup
  get?_eq : ∀ k, o.get? k = o'.get? k

variable {o o' : TextMap}

theorem SameMap.mem_iff (h : SameMap o o') (e : Text × Text) : e ∈ o ↔ e ∈ o' := by
  obtain ⟨k, v⟩ := e
  rw [← get?_eq_some_iff h.nodup, ← get?_eq_some_iff h.nodup', h.get?_eq]

/-- The entries of a map differ in their order only. -/
theorem SameMap.perm (h : SameMap o o') : o.Perm o' :=
  (List.perm_ext_iff_of_nodup h.nodup.of_map h.nodup'.of_map).mpr h.mem_iff

/-- Lists are of one map just if they are permutations of each other and no key comes twice. -/
theorem sameMap_iff : SameMap o o' ↔ o.Perm o' ∧ (o.map Prod.fst).Nodup := by
  refine ⟨fun h => ⟨h.perm, h.nodup⟩, fun ⟨hperm, hnodup⟩ => ?_⟩
  have hnodup' : (o'.map Prod.fst).Nodup := (hperm.map _).nodup_iff.mp hnodup
  refine ⟨hnodup, hnodup', fun k => Option.ext fun v => ?_⟩
  rw [get?_eq_some_iff hnodup, get?_eq_some_iff hnodup', hperm.mem_iff]

end TextMap

namespace Settings

/-- The settings have the same indentation, the same rest type, and the same overrides in any order.
Everything else may differ. -/
structure SameShape (s t : Settings) : Prop where
  indent : s.render.indent = t.render.indent
  restType : s.render.restType = t.render.restType
  overrides : TextMap.SameMap s.types.overrides t.types.overrides

variable {s t : Settings}

theorem SameShape.overrideEquations_eq (h : s.SameShape t) :
    s.overrideEquations = t.overrideEquations :=
  Text.sort_eq_of_perm (h.overrides.perm.map _)

theorem SameShape.hash_eq (h : s.SameShape t) : s.hash = t.hash := by
  have hrecord : s.renderingRecord = t.renderingRecord := by
    simp only [renderingRecord, h.indent, h.restType, h.overrideEquations_eq]
  rw [hash, hash, hrecord]

end Settings

/-- Of the settings, readying a store uses the hash alone. -/
theorem StoreSession.prepare_congr {s t : Settings} (h : s.hash = t.hash) (session : StoreSession) :
    session.prepare s = session.prepare t := by
  simp only [prepare, check, BlockStore.check, BlockStore.prepare, h]

/-- **The hash depends on what shapes blocks alone.** Settings with the same indentation, the same rest
type and the same finite map of overrides, in whatever order its entries come, have the same hash,
whatever else they say. An open store, in whatever state, that has been readied for the one is then left
as it is by readying it for the other, with all its blocks, and no reason is given. -/
theorem Settings.SameShape.keeps_store {s t : Settings} (h : s.SameShape t) :
    s.hash = t.hash ∧
      ∀ session : StoreSession, session.isOpen = true →
        ∃ ready reason, session.prepare s = .ok (ready, reason) ∧ ready.prepare t = .ok (ready, []) := by
  refine ⟨h.hash_eq, fun session hopen => ?_⟩
  have hready : session.prepare s = .ok (_, _) := StoreSession.prepare_eq_ok_iff.mpr ⟨hopen, rfl, rfl⟩
  refine ⟨_, _, hready, ?_⟩
  rw [← StoreSession.prepare_congr h.hash_eq]
  exact StoreSession.prepare_of_settled hopen (StoreSession.readied hready).settled

/-- Three overrides, two of them with the same equation. -/
def Settings.threeOverrides : Settings where
  types := { overrides := [("a", "b=c"), ("a=b", "c"), ("int", "Int")] }

/-- The same overrides in another order, and another output file and cache. -/
def Settings.threeOverridesAnew : Settings where
  convert := { includes := ["**/*.js"], output := "all.d.ts", header := "// all" }
  types := { overrides := [("int", "Int"), ("a=b", "c"), ("a", "b=c")] }
  cache := { path := "blocks.db" }
  log := { level := "debug" }

theorem Settings.sameShape_threeOverrides : threeOverrides.SameShape threeOverridesAnew where
  indent := rfl
  restType := rfl
  overrides := TextMap.sameMap_iff.mpr (by decide)

/-- An open store that names settings with three overrides, with a block. -/
def StoreSession.ofThreeOverrides : StoreSession where
  store := {
    blocks := [("A.js", "\x7b\x7d")]
    stats := [("config_hash", Settings.threeOverrides.hash), ("schema_version", "1")] }

theorem Settings.SameShape.keeps_store_threeOverrides :
    threeOverrides.SameShape threeOverridesAnew ∧ threeOverrides.hash = threeOverridesAnew.hash ∧
      StoreSession.ofThreeOverrides.prepare threeOverrides = .ok (.ofThreeOverrides, []) ∧
      StoreSession.ofThreeOverrides.prepare threeOverridesAnew = .ok (.ofThreeOverrides, []) := by
  have hschema : StoreSession.ofThreeOverrides.store.schema =
      ⟨BlockStore.currentVersion, threeOverrides.hash⟩ := rfl
  have hkept := StoreSession.prepare_of_settled (s := .ofThreeOverrides) rfl
    ⟨by rw [hschema], .inr (by rw [hschema])⟩
  obtain ⟨hhash, hstays⟩ := keeps_store sameShape_threeOverrides
  obtain ⟨ready, reason, hready, hagain⟩ := hstays .ofThreeOverrides rfl
  cases hkept.symm.trans hready
  exact ⟨sameShape_threeOverrides, hhash, hkept, hagain⟩

end StubDecl
