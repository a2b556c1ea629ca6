import StubDecl.Cache.Store

/-!
# The file of a cache store

A store is kept as a heading and its records one after the other. A record is a letter for the bucket
and two fields, and a field is its length, a colon and its bytes.
-/

namespace StubDecl.BlockStore

/-- How every file of a store begins. -/
def heading : Text := "stubconv cache\n"

/-- A field of a record. -/
def fieldText (t : Text) : Text := Text.ofNat t.length ++ 0x3a :: t

/-- The records of a bucket. -/
def recordTexts (letter : UInt8) (b : Bucket Text) : Text :=
  b.flatMap fun (k, v) => letter :: (fieldText k ++ fieldText v)

/-- A store as the content of a file. -/
def toFile (s : BlockStore) : Text :=
  heading ++ recordTexts 0x62 s.blocks ++ recordTexts 0x73 s.stats

/-- A field at the start of a text, and what follows it. -/
def readField (t : Text) : Option (Text × Text) :=
  let digits := t.takeWhile Ascii.isDigit
  let n := digits.foldl (fun n b => n * 10 + (b.toNat - 0x30)) 0
  match t.drop digits.length with
  | 0x3a :: r => if n ≤ r.length then some (r.take n, r.drop n) else none
  | _ => none

theorem length_readField {t f r : Text} (h : readField t = some (f, r)) : r.length ≤ t.length := by
  simp only [readField] at h
  split at h
  · next s hs =>
    split at h
    · cases h
      have := congrArg List.length hs
      simp only [List.length_drop, List.length_cons] at this ⊢
      omega
    · cases h
  · cases h

/-- The store with one more record. -/
def withRecord (s : BlockStore) (letter : UInt8) (k v : Text) : BlockStore :=
  if letter = 0x62 then { s with blocks := s.blocks.insert k v }
  else { s with stats := s.stats.insert k v }

/-- Adds the records of a text to a store. -/
def readRecords (s : BlockStore) (t : Text) : Option BlockStore :=
  match t with
  | [] => some s
  | letter :: t =>
    match _ : readField t with
    | none => none
    | some (k, r) =>
      match _ : readField r with
      | none => none
      | some (v, rest) => readRecords (s.withRecord letter k v) rest
termination_by t.length
decreasing_by
  have := length_readField (by assumption)
  have := length_readField (t := t) (by assumption)
  simp only [List.length_cons]
  omega

/-- The store in the content of a file, if there is one. -/
def ofFile? (t : Text) : Option BlockStore := (t.dropPrefix? heading).bind (readRecords {})

end StubDecl.BlockStore
