import Mathlib.Data.List.Induction
import StubDecl.Proofs.File.Plain

/-!
# What changes do to a plain disk

What each change does is said by what is at each place afterwards (`Disk.Plain.write_cases`,
`Disk.Plain.makeDir_cases`, `Disk.Plain.remove_cases`, `Disk.Plain.rename_cases`). A disk stays plain
under all changes but the making of a link (`Disk.Plain.apply`).
-/

namespace StubDecl.Disk

open FileTree (Entry)

namespace Plain

variable {d : Disk} {names : List Text}

/-! ## Making directories -/

/-- The directories on the way of the names have been made. No file was on it. -/
structure Made (d d' : Disk) (names : List Text) : Prop where
  plain : d'.Plain
  directory : d'.directory = d.directory
  clear : ∀ q l, q <+: names → d.root.node? q ≠ some (.leaf l)
  node? : ∀ q, d'.root.node? q = if q <+: names then some .dir else d.root.node? q

theorem made_self (hd : d.Plain) (hdir : d.root.node? names = some .dir) : Made d d names := by
  have hway : ∀ q, q <+: names → d.root.node? q = some .dir := by
    intro q hpre
    by_cases hq : q = names
    · rw [hq, hdir]
    · exact FileTree.node?_of_isPrefix (by simp [hdir]) hpre hq
  refine ⟨hd, rfl, fun q l hpre hleaf => ?_, fun q => ?_⟩
  · rw [hway q hpre] at hleaf
    cases hleaf
  · split
    · next hpre => exact hway q hpre
    · rfl

theorem makeDir_eq (hd : d.Plain) (h : ∀ n ∈ names, n.IsOrdinary)
    (hdir : d.root.node? names.dropLast = some .dir) (hnone : d.root.node? names = none) :
    d.makeDir (Path.rooted names) = .ok { d with root := d.root.setAt names (.dir .nil) } := by
  obtain ⟨-, hok⟩ | ⟨hno, -⟩ := hd.place_cases h false
  · simp only [makeDir, hok, FileTree.node?_eq_none_iff.mp hnone]
  · exact absurd hdir hno

/-- One directory more. -/
theorem Made.concat {d d' : Disk} {n : Text} (hmade : Made d d' names)
    (h : ∀ m ∈ names ++ [n], m.IsOrdinary) (hnone : d.root.node? (names ++ [n]) = none) :
    ∃ d'', d'.makeDir (Path.rooted (names ++ [n])) = .ok d'' ∧ Made d d'' (names ++ [n]) := by
  have hne : names ++ [n] ≠ [] := by simp
  have hdir : d'.root.node? (names ++ [n]).dropLast = some .dir := by
    rw [List.dropLast_concat, hmade.node?, if_pos (List.prefix_refl names)]
  have hnew : d'.root.node? (names ++ [n]) = none := by
    rw [hmade.node?, if_neg (FileTree.not_append_isPrefix (List.cons_ne_nil n [])), hnone]
  refine ⟨_, hmade.plain.makeDir_eq h hdir hnew, ?_, hmade.directory, fun q l hpre hleaf => ?_,
    fun q => ?_⟩
  · exact ⟨hmade.plain.root.setAt hne hdir h FileTree.plain_nil, hmade.plain.directory⟩
  · obtain rfl | hpre := List.prefix_concat_iff.mp hpre
    · rw [hnone] at hleaf
      cases hleaf
    · exact hmade.clear q l hpre hleaf
  · by_cases hpre : names ++ [n] <+: q
    · obtain ⟨r, rfl⟩ := hpre
      rw [FileTree.node?_setAt_append hne hdir]
      cases r with
      | nil =>
        rw [List.append_nil, if_pos List.prefix_rfl]
        rfl
      | cons m r =>
        rw [if_neg (FileTree.not_append_isPrefix (List.cons_ne_nil m r)), FileTree.node?_append,
          FileTree.node?_eq_none_iff.mp hnone]
        exact FileTree.node?_nil_eq_none m r
    · rw [FileTree.node?_setAt_elsewhere hpre, hmade.node?]
      have hsame : q <+: names ++ [n] ↔ q <+: names := by
        rw [List.prefix_concat_iff]
        exact or_iff_right fun heq => hpre (heq ▸ List.prefix_rfl)
      simp only [hsame]

/-- Directories are made on the whole way, unless there is a file on it. -/
theorem makeDirsFrom_cases (hd : d.Plain) (h : ∀ n ∈ names, n.IsOrdinary) {fuel : Nat}
    (hfuel : names.length < fuel) :
    ((∃ q l, q <+: names ∧ d.root.node? q = some (.leaf l)) ∧
        ∃ f, d.makeDirsFrom fuel (Path.rooted names) = .error f) ∨
      ∃ d', d.makeDirsFrom fuel (Path.rooted names) = .ok d' ∧ Made d d' names := by
  -- From the last name upwards, as the directories are asked for.
  induction names using List.reverseRecOn generalizing fuel with
  | nil =>
    obtain ⟨fuel, rfl⟩ := Nat.exists_eq_succ_of_ne_zero (Nat.ne_of_gt hfuel)
    have hstat : d.stat (Path.rooted []) = .ok (.dir d.root) := (hd.stat_eq_ok_iff h).mpr rfl
    exact .inr ⟨d, by rw [makeDirsFrom, hstat], hd.made_self rfl⟩
  | append_singleton names n ih =>
    obtain ⟨fuel, rfl⟩ := Nat.exists_eq_succ_of_ne_zero
      (Nat.ne_of_gt (Nat.lt_of_le_of_lt (Nat.zero_le _) hfuel))
    obtain ⟨hnames, hn⟩ := List.forall_mem_append.mp h
    rw [makeDirsFrom]
    cases hget : d.root.getAt? (names ++ [n]) with
    | some e =>
      rw [(hd.stat_eq_ok_iff h).mpr hget]
      cases e with
      | leaf l => exact .inl ⟨⟨_, l, List.prefix_rfl, FileTree.node?_eq_leaf_iff.mpr hget⟩, _, rfl⟩
      | dir es =>
        have hdir : d.root.node? (names ++ [n]) = some .dir := FileTree.node?_eq_dir_iff.mpr ⟨es, hget⟩
        exact .inr ⟨d, rfl, hd.made_self hdir⟩
    | none =>
      have hnone := FileTree.node?_eq_none_iff.mpr hget
      have herror : ∃ f, d.stat (Path.rooted (names ++ [n])) = .error f := by
        cases hstat : d.stat (Path.rooted (names ++ [n])) with
        | error f => exact ⟨f, rfl⟩
        | ok e =>
          rw [hd.stat_eq_ok_iff h, hget] at hstat
          cases hstat
      obtain ⟨f, hf⟩ := herror
      rw [hf]
      simp only [upper_rooted hnames (hn n (by simp))]
      have habove := ih hnames (Nat.lt_of_succ_lt_succ (by simpa using hfuel))
      by_cases hnil : names = []
      · -- The root is there: above a single name nothing has to be made.
        subst hnil
        obtain ⟨d', hmake, hmade⟩ := (hd.made_self rfl).concat h hnone
        exact .inr ⟨d', hmake, hmade⟩
      · have hempty : (Path.rooted names).isEmpty = false := rfl
        rw [if_neg hnil, hempty]
        obtain ⟨⟨q, l, hpre, hleaf⟩, f', hf'⟩ | ⟨d', hok, hmade⟩ := habove
        · refine .inl ⟨⟨q, l, hpre.trans (List.prefix_append names [n]), hleaf⟩, f', ?_⟩
          simp only [Bool.false_eq_true, if_false, hf', bind, Except.bind]
        · obtain ⟨d'', hmake, hmade'⟩ := hmade.concat h hnone
          refine .inr ⟨d'', ?_, hmade'⟩
          simp only [Bool.false_eq_true, if_false, hok, bind, Except.bind, hmake]

theorem length_le_rooted (names : List Text) : names.length < (Path.rooted names).length + 1 := by
  have hbase : names.length ≤ (Path.base names).length := by
    induction names with
    | nil => exact Nat.le_refl 0
    | cons n names ih =>
      have hslash : (Text.ofString "/").length = 1 := by decide
      rw [Path.base_cons, List.length_append, List.length_append, hslash, List.length_cons]
      omega
  by_cases hne : names = []
  · rw [hne]
    decide
  · rw [Path.base_eq hne, List.length_append] at hbase
    have hslash : (Text.ofString "/").length = 1 := by decide
    rw [Path.rooted, List.length_cons]
    omega

theorem makeDirs_cases (hd : d.Plain) (h : ∀ n ∈ names, n.IsOrdinary) :
    ((∃ q l, q <+: names ∧ d.root.node? q = some (.leaf l)) ∧
        ∃ f, d.makeDirs (Path.rooted names) = .error f) ∨
      ∃ d', d.makeDirs (Path.rooted names) = .ok d' ∧ Made d d' names :=
  hd.makeDirsFrom_cases h (length_le_rooted names)

/-! ## What changes do -/

/-- The same is at all places. -/
def Same (d d' : Disk) : Prop := ∀ q, d'.root.node? q = d.root.node? q

/-- A directory is made with those above it, or nothing changes. -/
theorem makeDir_cases (hd : d.Plain) (h : ∀ n ∈ names, n.IsOrdinary) {p : Text}
    (hp : d.absolute p = Path.rooted names) :
    (d.apply (.makeDir p) = d ∧ ∃ q l, q <+: names ∧ d.root.node? q = some (.leaf l)) ∨
      Made d (d.apply (.makeDir p)) names := by
  simp only [apply, hp]
  obtain ⟨hleaf, f, hf⟩ | ⟨d', hok, hmade⟩ := hd.makeDirs_cases h
  · rw [hf]
    exact .inl ⟨rfl, hleaf⟩
  · rw [hok]
    exact .inr hmade

/-- The file has been written, with the directories above it. No other file was on the way. -/
structure Written (d d' : Disk) (names : List Text) (content : Text) : Prop where
  plain : d'.Plain
  directory : d'.directory = d.directory
  not_dir : d.root.node? names ≠ some .dir
  clear : ∀ q l, q <+: names.dropLast → d.root.node? q ≠ some (.leaf l)
  node? : ∀ q, d'.root.node? q =
    if q = names then some (.leaf (.file content)) else if q <+: names then some .dir
    else d.root.node? q

theorem putFile_cases (hd : d.Plain) (h : ∀ n ∈ names, n.IsOrdinary) (content : Text) :
    ((d.root.node? names.dropLast ≠ some .dir ∨ d.root.node? names = some .dir) ∧
        ∃ f, d.putFile (Path.rooted names) content = .error f) ∨
      (d.root.node? names.dropLast = some .dir ∧ d.root.node? names ≠ some .dir ∧
        d.putFile (Path.rooted names) content = .ok (d.withLeaf names (.file content))) := by
  simp only [putFile, placeForWriting]
  obtain ⟨hdir, hok⟩ | ⟨hno, f, hf⟩ := hd.place_cases h true
  · simp only [hok]
    cases hget : d.root.getAt? names with
    | none =>
      have hno : d.root.node? names ≠ some .dir := by simp [FileTree.node?_eq_none_iff.mpr hget]
      exact .inr ⟨hdir, hno, rfl⟩
    | some e =>
      cases e with
      | leaf l =>
        have hno : d.root.node? names ≠ some .dir := by simp [FileTree.node?_eq_leaf_iff.mpr hget]
        exact .inr ⟨hdir, hno, rfl⟩
      | dir es => exact .inl ⟨.inr (FileTree.node?_eq_dir_iff.mpr ⟨es, hget⟩), _, rfl⟩
  · rw [hf]
    exact .inl ⟨.inl hno, _, rfl⟩

theorem ne_nil_of_not_dir (h : d.root.node? names ≠ some .dir) : names ≠ [] := by
  rintro rfl
  exact h rfl

theorem Made.write {d d' : Disk} (hmade : Made d d' names.dropLast) (h : ∀ n ∈ names, n.IsOrdinary)
    (hdir : d'.root.node? names.dropLast = some .dir) (hno : d.root.node? names ≠ some .dir)
    (content : Text) : Written d (d'.withLeaf names (.file content)) names content := by
  have hne := ne_nil_of_not_dir hno
  refine ⟨⟨hmade.plain.root.setAt hne hdir h ⟨content, rfl⟩, hmade.plain.directory⟩, hmade.directory,
    hno, hmade.clear, fun q => ?_⟩
  simp only [withLeaf]
  by_cases hpre : names <+: q
  · obtain ⟨r, rfl⟩ := hpre
    rw [FileTree.node?_setAt_append hne hdir]
    cases r with
    | nil =>
      rw [List.append_nil, if_pos rfl]
      rfl
    | cons m r =>
      have hpre : names <+: names ++ m :: r := List.prefix_append names (m :: r)
      have hlong : names ++ m :: r ≠ names := by simp
      rw [if_neg hlong, if_neg (FileTree.not_append_isPrefix (List.cons_ne_nil m r)),
        FileTree.node?_eq_none_of_isPrefix hno hpre (Ne.symm hlong)]
      rfl
  · have hqne : q ≠ names := by
      rintro rfl
      exact hpre List.prefix_rfl
    have hsame : q <+: names ↔ q <+: names.dropLast := by
      obtain ⟨init, n, rfl⟩ := (List.eq_nil_or_concat' names).resolve_left hne
      rw [List.prefix_concat_iff, List.dropLast_concat]
      exact or_iff_right hqne
    rw [FileTree.node?_setAt_elsewhere hpre, hmade.node?, if_neg hqne]
    simp only [hsame]

/-- A file is written, or nothing changes: there is a directory in its place, or none above it. -/
theorem write_cases (hd : d.Plain) (h : ∀ n ∈ names, n.IsOrdinary) {p : Text}
    (hp : d.absolute p = Path.rooted names) (content : Text) :
    ((d.apply (.write p content)).Plain ∧ (d.apply (.write p content)).directory = d.directory ∧
        Same d (d.apply (.write p content)) ∧
        (d.root.node? names.dropLast ≠ some .dir ∨ d.root.node? names = some .dir)) ∨
      Written d (d.apply (.write p content)) names content := by
  have hparent : ∀ n ∈ names.dropLast, n.IsOrdinary := fun n hn => h n (List.dropLast_subset names hn)
  simp only [apply, hp, Path.parent_rooted h]
  obtain ⟨⟨q, l, hpre, hleaf⟩, f, hf⟩ | ⟨d', hok, hmade⟩ := hd.makeDirs_cases hparent
  · -- Below a file nothing can be written.
    rw [hf]
    simp only [Except.toOption, Option.getD_none]
    obtain ⟨hno, f', hf'⟩ | ⟨hdir, -, -⟩ := hd.putFile_cases h content
    · rw [hf']
      exact .inl ⟨hd, rfl, fun _ => rfl, hno⟩
    · have hdirs := hd.made_self hdir
      rw [hdirs.node?, if_pos hpre] at hleaf
      cases hleaf
  · rw [hok]
    simp only [Except.toOption, Option.getD_some]
    have hdir : d'.root.node? names.dropLast = some .dir := by
      rw [hmade.node?, if_pos List.prefix_rfl]
    have hthere : d'.root.node? names = some .dir ↔ d.root.node? names = some .dir := by
      rw [hmade.node?]
      split
      · next hpre =>
        have hnil : names = [] := by
          have hlen := hpre.length_le
          rw [List.length_dropLast] at hlen
          exact List.eq_nil_of_length_eq_zero (by omega)
        simp [hnil]
      · rfl
    obtain ⟨hno, f', hf'⟩ | ⟨-, hno, hok'⟩ := hmade.plain.putFile_cases h content
    · rw [hf']
      have hin : d.root.node? names = some .dir := hthere.mp (hno.resolve_left (not_not_intro hdir))
      refine .inl ⟨hmade.plain, hmade.directory, fun q => ?_, .inr hin⟩
      have hdirs := hd.made_self hin
      simp only [Option.getD_none]
      rw [hmade.node?]
      split
      · next hpre => rw [hdirs.node?, if_pos (hpre.trans (List.dropLast_prefix names))]
      · rfl
    · rw [hok']
      exact .inr (hmade.write h hdir (fun hthere' => hno (hthere.mpr hthere')) content)

/-- Something is removed with all that is in it, or nothing changes. -/
theorem remove_cases (hd : d.Plain) (h : ∀ n ∈ names, n.IsOrdinary) {p : Text}
    (hp : d.absolute p = Path.rooted names) :
    (d.apply (.remove p)).Plain ∧ (d.apply (.remove p)).directory = d.directory ∧
      (d.root.node? names = none ∧ Same d (d.apply (.remove p)) ∨
        d.root.node? names ≠ none ∧ d.apply (.remove p) = { d with root := d.root.eraseAt names }) := by
  simp only [apply, hp]
  obtain ⟨hdir, hok⟩ | ⟨hno, f, hf⟩ := hd.place_cases h false
  · rw [hd.ownPlace_eq h hdir]
    refine ⟨⟨hd.root.eraseAt names, hd.directory⟩, trivial, ?_⟩
    by_cases hnone : d.root.node? names = none
    · have hne : names ≠ [] := by
        rintro rfl
        cases hnone
      refine .inl ⟨hnone, fun q => ?_⟩
      by_cases hpre : names <+: q
      · obtain ⟨r, rfl⟩ := hpre
        rw [FileTree.node?_eraseAt_append hne hd.root.proper, FileTree.node?_append,
          FileTree.node?_eq_none_iff.mp hnone]
        rfl
      · exact FileTree.node?_eraseAt_elsewhere hpre hd.root.proper
    · exact .inr ⟨hnone, rfl⟩
  · have hnone : d.root.node? names = none := by
      by_contra hsome
      exact hno (FileTree.node?_dropLast hsome)
    have hplace : d.ownPlace (Path.rooted names) = [] := by
      rw [ownPlace, hf]
      rfl
    rw [hplace]
    exact ⟨hd, trivial, .inl ⟨hnone, fun _ => rfl⟩⟩

/-- An entry has been moved: what it is, where it was and where it has come to. -/
structure Moved (d d' : Disk) (e : Entry Leaf) (source target : List Text) : Prop where
  plain : d'.Plain
  directory : d'.directory = d.directory
  root : d'.root = (d.root.eraseAt source).setAt target e
  entry : d.root.getAt? source = some e
  above : d.root.node? target.dropLast = some .dir
  apart : ¬source <+: target
  replaced : replaces e (d.root.getAt? target) = true

/-- What is moved does not come to where there is something around it. -/
theorem not_prefix_of_replaces {e : Entry Leaf} {source target : List Text}
    (hentry : d.root.getAt? source = some e) (hapart : ¬source <+: target)
    (hreplaced : replaces e (d.root.getAt? target) = true) : ¬target <+: source := by
  rintro ⟨r, rfl⟩
  cases r with
  | nil => exact hapart (by simp)
  | cons n r =>
    rw [FileTree.getAt?_append] at hentry
    obtain ⟨f, hf, hbelow⟩ := Option.bind_eq_some_iff.mp hentry
    rw [hf] at hreplaced
    cases f with
    | leaf l => cases hbelow
    | dir es =>
      cases e with
      | leaf l => cases hreplaced
      | dir es' =>
        obtain rfl : es = .nil := of_decide_eq_true hreplaced
        rw [FileTree.Entry.getAt?, FileTree.getAt?_cons] at hbelow
        cases hbelow

theorem rename_cases (hd : d.Plain) (h : ∀ n ∈ names, n.IsOrdinary) {names' : List Text}
    (h' : ∀ n ∈ names', n.IsOrdinary) {p q : Text} (hp : d.absolute p = Path.rooted names)
    (hq : d.absolute q = Path.rooted names') :
    (d.moveOf? p q = none ∧ d.apply (.rename p q) = d) ∨
      ∃ e, d.moveOf? p q = some (e, names, names') ∧
        Moved d (d.apply (.rename p q)) e names names' := by
  simp only [apply]
  cases hmove : d.moveOf? p q with
  | none => exact .inl ⟨rfl, rfl⟩
  | some m =>
    simp only [moveOf?, hp, hq] at hmove
    split at hmove
    · next e target hstat hplace =>
      have hget : d.root.getAt? names = some e := (hd.lstat_eq_ok_iff h).mp hstat
      have hthere : d.root.node? names ≠ none := by
        rw [Ne, FileTree.node?_eq_none_iff, hget]
        exact Option.some_ne_none e
      rw [hd.ownPlace_eq h (FileTree.node?_dropLast hthere)] at hmove
      obtain ⟨habove, hok⟩ | ⟨-, f, hf⟩ := hd.place_cases h' false
      · obtain rfl : names' = target := Except.ok.inj (hok.symm.trans hplace)
        split at hmove
        · cases hmove
        · next hguard =>
          cases hmove
          simp only [Bool.or_eq_true, Bool.not_eq_true', not_or, Bool.not_eq_false,
            List.isPrefixOf_iff_prefix] at hguard
          obtain ⟨hapart, hreplaced⟩ := hguard
          have hne' : names' ≠ [] := by
            rintro rfl
            exact not_prefix_of_replaces hget hapart hreplaced List.nil_prefix
          have hleft : (d.root.eraseAt names).node? names'.dropLast = some .dir := by
            rw [FileTree.node?_eraseAt_elsewhere _ hd.root.proper, habove]
            exact fun hpre => hapart (hpre.trans (List.dropLast_prefix names'))
          have hplain := (hd.root.eraseAt names).setAt hne' hleft h' (hd.root.getAt? hget)
          exact .inr ⟨e, rfl, ⟨hplain, hd.directory⟩, rfl, rfl, hget, habove, hapart, hreplaced⟩
      · rw [hf] at hplace
        cases hplace
    · cases hmove

namespace Moved

variable {d' : Disk} {e : Entry Leaf} {source target : List Text}

theorem not_above (h : Moved d d' e source target) : ¬target <+: source :=
  not_prefix_of_replaces h.entry h.apart h.replaced

theorem source_ne_nil (h : Moved d d' e source target) : source ≠ [] := by
  rintro rfl
  exact h.apart List.nil_prefix

theorem target_ne_nil (h : Moved d d' e source target) : target ≠ [] := by
  rintro rfl
  exact h.not_above List.nil_prefix

/-- What was in the entry is in it where it has come to. -/
theorem node?_target (h : Moved d d' e source target) (hd : d.Plain) (r : List Text) :
    d'.root.node? (target ++ r) = d.root.node? (source ++ r) := by
  have hleft : (d.root.eraseAt source).node? target.dropLast = some .dir := by
    rw [FileTree.node?_eraseAt_elsewhere _ hd.root.proper, h.above]
    exact fun hpre => h.apart (hpre.trans (List.dropLast_prefix target))
  rw [h.root, FileTree.node?_setAt_append h.target_ne_nil hleft, FileTree.node?_append, h.entry]
  rfl

/-- Nothing else has come or gone but what was moved. -/
theorem node?_elsewhere (h : Moved d d' e source target) {q : List Text} (hq : ¬target <+: q) :
    d'.root.node? q = (d.root.eraseAt source).node? q := by
  rw [h.root, FileTree.node?_setAt_elsewhere hq]

/-- What was in the entry is no longer where it was. -/
theorem node?_source (h : Moved d d' e source target) (hd : d.Plain) {q : List Text}
    (hq : ¬target <+: q) (hpre : source <+: q) : d'.root.node? q = none := by
  obtain ⟨r, rfl⟩ := hpre
  rw [h.node?_elsewhere hq]
  exact FileTree.node?_eraseAt_append h.source_ne_nil hd.root.proper r

theorem node?_apart (h : Moved d d' e source target) (hd : d.Plain) {q : List Text}
    (hq : ¬target <+: q) (hq' : ¬source <+: q) : d'.root.node? q = d.root.node? q := by
  rw [h.node?_elsewhere hq, FileTree.node?_eraseAt_elsewhere hq' hd.root.proper]

/-- In the place of a file there is a file. -/
theorem exists_leaf (h : Moved d d' e source target) (hd : d.Plain) {q : List Text} {l : Leaf}
    (hpre : target <+: q) (hleaf : d.root.node? q = some (.leaf l)) :
    ∃ b, d'.root.node? q = some (.leaf b) := by
  obtain ⟨r, rfl⟩ := hpre
  have hreplaced := h.replaced
  rw [FileTree.node?_append] at hleaf
  obtain ⟨old, hold, hin⟩ := Option.bind_eq_some_iff.mp hleaf
  rw [hold] at hreplaced
  cases old with
  | leaf k =>
    cases r with
    | nil =>
      rw [h.node?_target hd, List.append_nil]
      cases e with
      | leaf b => exact ⟨b, FileTree.node?_eq_leaf_iff.mpr h.entry⟩
      | dir es => cases hreplaced
    | cons n r => cases hin
  | dir es =>
    cases e with
    | leaf b => cases hreplaced
    | dir es' =>
      obtain rfl : es = .nil := of_decide_eq_true hreplaced
      cases r with
      | nil => cases hin
      | cons n r =>
        rw [FileTree.node?_dir, FileTree.node?_nil_eq_none] at hin
        cases hin

end Moved

end Plain

/-- A change that makes no link. -/
def Change.MakesNoLink : Change → Prop
  | .link _ _ => False
  | _ => True

/-- **A disk stays plain** as long as no link is made. -/
theorem Plain.apply {d : Disk} (hd : d.Plain) {c : Change} (hc : c.MakesNoLink) :
    (d.apply c).Plain ∧ (d.apply c).directory = d.directory := by
  cases c with
  | write p content =>
    obtain ⟨names, h, hp⟩ := hd.exists_names p
    obtain ⟨hplain, hdirectory, -⟩ | hwritten := hd.write_cases h hp content
    · exact ⟨hplain, hdirectory⟩
    · exact ⟨hwritten.plain, hwritten.directory⟩
  | remove p =>
    obtain ⟨names, h, hp⟩ := hd.exists_names p
    obtain ⟨hplain, hdirectory, -⟩ := hd.remove_cases h hp
    exact ⟨hplain, hdirectory⟩
  | makeDir p =>
    obtain ⟨names, h, hp⟩ := hd.exists_names p
    obtain ⟨hsame, -⟩ | hmade := hd.makeDir_cases h hp
    · rw [hsame]
      exact ⟨hd, rfl⟩
    · exact ⟨hmade.plain, hmade.directory⟩
  | rename p q =>
    obtain ⟨names, h, hp⟩ := hd.exists_names p
    obtain ⟨names', h', hq⟩ := hd.exists_names q
    obtain ⟨-, hsame⟩ | ⟨e, -, hmoved⟩ := hd.rename_cases h h' hp hq
    · rw [hsame]
      exact ⟨hd, rfl⟩
    · exact ⟨hmoved.plain, hmoved.directory⟩
  | link target p => exact hc.elim

theorem Plain.write {d : Disk} (hd : d.Plain) (p content : Text) : (d.apply (.write p content)).Plain :=
  (hd.apply (c := .write p content) trivial).1

end StubDecl.Disk
