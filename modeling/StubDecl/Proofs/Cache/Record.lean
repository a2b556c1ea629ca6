import StubDecl.Proofs.Cache.Sound
import StubDecl.Proofs.Json.Scalar

/-!
# Records that come back

A block that was stored as a record comes back repaired: every stray byte of its texts has become
U+FFFD, and nothing else has changed (`CachedBlock.ofRecord_toRecord`). So the persistent store keeps
the repaired form of what it is given (`BlockCache.store_keeps`).
-/

namespace StubDecl

namespace Json

variable {v : Text} {x : Scalar}

/-- A field with what follows it, as far as it is read first. -/
theorem field_append (name v r : Text) :
    Record.field name v ++ r =
      0x22 :: (name.units.flatMap (escape true) ++ 0x22 :: 0x3a :: (v ++ r)) := by
  have hcolon : (":" : Text) = [0x3a] := rfl
  simp [Record.field, string, hcolon]

theorem skipBlanks_cons {b : UInt8} (hb : (b = 0x20 || b = 0x09 || b = 0x0a || b = 0x0d) = false)
    (t : Text) : skipBlanks (b :: t) = b :: t := by
  rw [skipBlanks, List.dropWhile_cons_of_neg]
  rw [hb]
  exact Bool.false_ne_true

theorem members?_last (hv : Writes v x) (first : Bool) (k depth : Nat) (name r : Text) :
    members? first (k + 2) depth (Record.field name v ++ 0x7d :: r) =
      some ([(name.repair, x)], r) := by
  have hread := hv k depth (0x7d :: r) ⟨r, .inr rfl⟩
  rw [field_append, members?, skipBlanks_cons (by decide)]
  simp only [string?_string, Option.bind_eq_bind, Option.bind_some, skipBlanks_cons (b := 0x3a) rfl,
    hread, skipBlanks_cons (b := 0x7d) rfl]

theorem members?_cons (hv : Writes v x) (first : Bool) (k depth : Nat) (name r : Text) :
    members? first (k + 2) depth (Record.field name v ++ 0x2c :: r) =
      (members? false (k + 1) depth r).map fun (ms, r) => ((name.repair, x) :: ms, r) := by
  have hread := hv k depth (0x2c :: r) ⟨r, .inl rfl⟩
  rw [field_append, members?, skipBlanks_cons (by decide)]
  simp only [string?_string, Option.bind_eq_bind, Option.bind_some, skipBlanks_cons (b := 0x3a) rfl,
    hread, skipBlanks_cons (b := 0x2c) rfl]

/-- A field of a record: its name, how its value is written, and the value. -/
structure Entry where
  name : Text
  written : Text
  value : Scalar
  writes : Writes written value

/-- A field with a text. -/
def Entry.text (name t : Text) : Entry := ⟨name, string t, .string t.repair, writes_string t⟩

/-- A field with a number. -/
def Entry.number (name : Text) (n : Int64) : Entry :=
  ⟨name, Record.number n, .number (Record.number n), writes_number _⟩

/-- The entry as it stands in a record. -/
def Entry.field (e : Entry) : Text := Record.field e.name e.written

/-- The entry as it is read back. -/
def Entry.member (e : Entry) : Text × Scalar := (e.name.repair, e.value)

theorem joinWith_fields (e e' : Entry) (es : List Entry) :
    Text.joinWith "," ((e :: e' :: es).map Entry.field) =
      e.field ++ 0x2c :: Text.joinWith "," ((e' :: es).map Entry.field) := by
  rw [List.map_cons, Text.joinWith_cons _ _ (by simp), List.append_assoc]
  rfl

theorem members?_entries (first : Bool) (depth : Nat) (r : Text) (e : Entry) (es : List Entry) {k : Nat}
    (hk : es.length ≤ k) :
    members? first (k + 2) depth (Text.joinWith "," ((e :: es).map Entry.field) ++ 0x7d :: r) =
      some ((e :: es).map Entry.member, r) := by
  induction es generalizing e first k with
  | nil => exact members?_last e.writes first k depth e.name r
  | cons e' es ih =>
    obtain _ | k := k
    · cases hk
    · rw [joinWith_fields, List.append_assoc, List.cons_append, Entry.field, members?_cons e.writes,
        ih false e' (Nat.le_of_succ_le_succ hk)]
      rfl

theorem length_le_joinWith (e : Entry) (es : List Entry) :
    es.length ≤ (Text.joinWith "," ((e :: es).map Entry.field)).length := by
  induction es generalizing e with
  | nil => exact Nat.zero_le _
  | cons e' es ih =>
    have := ih e'
    rw [joinWith_fields, List.length_append, List.length_cons, List.length_cons]
    omega

/-- The members of a record are its entries. -/
theorem parse_object (e : Entry) (es : List Entry) :
    parse (Record.object ((e :: es).map Entry.field)) =
      some (.object ((e :: es).map Entry.member)) := by
  have hcons : Record.object ((e :: es).map Entry.field) =
      0x7b :: (Text.joinWith "," ((e :: es).map Entry.field) ++ [0x7d]) := rfl
  have hlen := length_le_joinWith e es
  rw [hcons, parse, skipBlanks_cons rfl]
  simp only [List.length_cons, List.length_append, List.length_nil]
  rw [members?_entries true _ [] e es (by omega)]
  rfl

theorem readNumber_number (old n : Int64) :
    Record.readNumber old (.number (Record.number n)) = (n, true) := by
  rw [Record.readNumber, Record.number, int64?_ofInt]

end Json

namespace CachedBlock

open Json Record

/-- The block as it comes back from a record. -/
def repaired (b : CachedBlock) : CachedBlock :=
  { b with
    path := b.path.repair
    hash := b.hash.repair
    block := b.block.repair
    className := b.className.repair
    parent := b.parent.repair }

/-- The fields of a block but its path, which comes first. -/
def entries (b : CachedBlock) : List Entry :=
  [Entry.text "content_hash" b.hash, Entry.text "block" b.block, Entry.text "class_name" b.className] ++
    (if b.parent.isEmpty then [] else [Entry.text "extends" b.parent]) ++
    [Entry.number "methods" b.methodCount, Entry.number "variables" b.variableCount]

theorem toRecord_eq (b : CachedBlock) :
    b.toRecord = object ((Entry.text "path" b.path :: b.entries).map Entry.field) := by
  rw [toRecord, entries]
  split <;> rfl

/-- A block that was stored as a record comes back repaired. -/
theorem ofRecord_toRecord (b : CachedBlock) : ofRecord b.toRecord = (b.repaired, true) := by
  have hmethods : ∀ (b : CachedBlock) (n : Int64),
      readMember b (Entry.number "methods" n).member.1 (Entry.number "methods" n).member.2 =
        ({ b with methodCount := n }, true) := by
    intro b n
    exact congrArg (fun r : Int64 × Bool => ({ b with methodCount := r.1 }, r.2))
      (readNumber_number b.methodCount n)
  have hvariables : ∀ (b : CachedBlock) (n : Int64),
      readMember b (Entry.number "variables" n).member.1 (Entry.number "variables" n).member.2 =
        ({ b with variableCount := n }, true) := by
    intro b n
    exact congrArg (fun r : Int64 × Bool => ({ b with variableCount := r.1 }, r.2))
      (readNumber_number b.variableCount n)
  rw [ofRecord, Record.read, toRecord_eq, parse_object, entries]
  -- without a parent there is no such field, and the parent stays the empty one
  cases hp : b.parent with
  | nil =>
    simp only [List.isEmpty_nil, if_true, List.append_nil, List.cons_append, List.nil_append,
      List.map_cons, List.map_nil, List.foldl_cons, List.foldl_nil, hmethods, hvariables]
    simp only [repaired, hp]
    rfl
  | cons c p =>
    simp only [List.isEmpty_cons, Bool.false_eq_true, if_false, List.cons_append, List.nil_append,
      List.map_cons, List.map_nil, List.foldl_cons, List.foldl_nil, hmethods, hvariables]
    simp only [repaired, hp]
    rfl

end CachedBlock

/-! ## The store -/

theorem toHex_ascii (t : Text) : ∀ b ∈ t.toHex, b.toNat < 0x80 := by
  have hdigit : ∀ n < 16, (Text.hexDigit n).toNat < 0x80 := by decide
  intro b hb
  obtain ⟨x, -, hb⟩ := List.mem_flatMap.mp hb
  have hx := x.toNat_lt
  simp only [List.mem_cons, List.not_mem_nil, or_false] at hb
  obtain rfl | rfl := hb
  · exact hdigit _ (by omega)
  · exact hdigit _ (by omega)

/-- Digests are plain texts. -/
theorem repair_contentHash (t : Text) : (contentHash t).repair = contentHash t :=
  (Text.repair_eq_self_iff _).mpr (Text.isUtf8_of_ascii (toHex_ascii _))

namespace BlockStore

theorem put_eq_ok {s s' : BlockStore} {b : CachedBlock} (h : s.put b = .ok s') :
    s' = { s with blocks := s.blocks.insert b.path b.toRecord } := by
  simp only [put, putRecord] at h
  cases hk : keyFault? b.path with
  | some f =>
    rw [hk] at h
    cases h
  | none =>
    rw [hk] at h
    cases h
    rfl

end BlockStore

namespace BlockCache

theorem store_get {s : BlockStore} {p : Text} {b : CachedBlock} :
    store.get s p = .ok (some b) ↔
      ∃ t, s.blocks.get? p = some t ∧ CachedBlock.ofRecord t = (b, true) := by
  simp only [store, BlockStore.get]
  cases s.blocks.get? p with
  | none => simp
  | some t =>
    obtain ⟨b', good, h⟩ : ∃ b' good, CachedBlock.ofRecord t = (b', good) := ⟨_, _, rfl⟩
    cases good <;> simp [h]

/-- A store gives back the repaired form of blocks. -/
theorem store_keeps : store.Keeps CachedBlock.repaired where
  get_put := by
    intro s s' b b' p hput hget
    obtain rfl := BlockStore.put_eq_ok hput
    obtain ⟨t, ht, hread⟩ := store_get.mp hget
    rw [Bucket.get?_insert] at ht
    split at ht
    · next hp =>
      obtain rfl := Option.some.inj ht
      rw [CachedBlock.ofRecord_toRecord] at hread
      exact .inl ⟨hp, (Prod.mk.inj hread).1.symm⟩
    · exact .inr (store_get.mpr ⟨t, ht, hread⟩)
  get_delete := by
    intro s s' b p q hdel hget
    cases hdel
    obtain ⟨t, ht, hread⟩ := store_get.mp hget
    simp only [BlockStore.delete, Bucket.get?_erase] at ht
    split at ht
    · cases ht
    · exact store_get.mpr ⟨t, ht, hread⟩
  hash_image := by
    intro m y path content b hb
    rw [CachedBlock.repaired, hb.hash_eq, repair_contentHash]

end BlockCache

end StubDecl
