import StubDecl.Proofs.Watch.Leave

/-!
# Which changes are missed

A watcher attends through any history of changes below its directory, as long as no directory under watch
moves along with one that holds it (`Watcher.Reached.attends`). After such a history exactly those changes
to what is read are missed in which a directory hides its files (`Watcher.missed_iff_hides`).
-/

namespace StubDecl.Watcher

variable {w : Watcher} {s : Scope} {d : Disk} {dir : Text}

/-- What a watcher of a directory and the disk come to by changes below the directory. No directory is
moved along with one that holds it, as far as the walk enters them. -/
inductive Reached (s : Scope) (dir : Text) : Watcher → Disk → Prop where
  | start {d : Disk} {t : FileTree Leaf} (plain : d.Plain)
      (there : d.lstat (d.absolute dir) = .ok (.dir t)) :
      Reached s dir (start s d.root (d.ownPlace (d.absolute dir))) d
  | change {w : Watcher} {d : Disk} (before : Reached s dir w d) (c : Disk.Change)
      (below : c.Below d dir) (alone : c.MovesAlone d s dir) :
      Reached s dir (w.changed d c).1 (d.apply c)

/-- **A watcher attends through any history.** -/
theorem Reached.attends (h : Reached s dir w d) : w.Attends s d dir (d.ownPlace (d.absolute dir)) := by
  induction h with
  | start plain there => exact attends_start s plain there
  | @change w d before c below alone ih =>
    have hnext : (w.notice d c).1.Attends s (d.apply c) dir (d.ownPlace (d.absolute dir)) := by
      cases c with
      | write p content => exact (ih.write below content).attends
      | remove p => exact (ih.remove below).attends
      | makeDir p => exact (ih.makeDir below).attends
      | rename p q => exact ih.rename below alone
      | link target p => exact below.elim
    rw [hnext.ownPlace_eq]
    exact hnext

/-- Sorting the reported paths does not lose the last of them. -/
theorem changed_eq_nil_iff {c : Disk.Change} : (w.changed d c).2 = [] ↔ (w.notice d c).2 = [] := by
  have hperm : (w.changed d c).2.Perm (w.notice d c).2.eraseDups := List.mergeSort_perm _ _
  constructor
  · intro hnil
    rw [hnil] at hperm
    refine List.eq_nil_iff_forall_not_mem.mpr fun r hr => ?_
    have hmem : r ∈ (w.notice d c).2.eraseDups := List.mem_eraseDups.mpr hr
    rw [← hperm.nil_eq] at hmem
    cases hmem
  · intro hnil
    rw [hnil, List.eraseDups_nil] at hperm
    exact hperm.eq_nil

/-- **Which changes are missed.** After any history, a change that makes a difference to the files that
are read, or to their contents, is reported with at least one path, unless a directory that is not itself
selected moves to where none of the files in it is selected. -/
theorem missed_iff_hides (h : Reached s dir w d) {c : Disk.Change} (hc : c.Below d dir)
    (hother : (d.apply c).readings s dir ≠ d.readings s dir) :
    (w.changed d c).2 = [] ↔ c.Hides d s dir := by
  have hattends := h.attends
  rw [changed_eq_nil_iff]
  cases c with
  | write p content => exact iff_of_false ((hattends.write hc content).reports hother) id
  | remove p => exact iff_of_false ((hattends.remove hc).reports hother) id
  | makeDir p => exact iff_of_false ((hattends.makeDir hc).reports hother) id
  | rename p q => exact hattends.rename_eq_nil_iff hc hother
  | link target p => exact hc.elim

/-- A class in a directory of its own. -/
def ownDirectory : Disk := Disk.apply {} (.write "/src/A.js" "function A")

theorem missed_iff_hides_excludedTarget :
    let s := Scope.ofPatterns ["**/*.js"] ["skip/**"]
    let d := ownDirectory.apply (.write "/src/B.js" "function B")
    let w := ((start s ownDirectory.root []).changed ownDirectory (.write "/src/B.js" "function B")).1
    let c := Disk.Change.rename "/src" "/skip"
    Reached s "/" w d ∧ c.Below d "/" ∧ (d.apply c).readings s "/" ≠ d.readings s "/" ∧
      (w.changed d c).2 = [] ∧ ((w.changed d c).2 = [] ↔ c.Hides d s "/") := by
  intro s d w c
  have hplain : ownDirectory.Plain := Disk.plain_empty.write _ _
  have hstart : Reached s "/" (start s ownDirectory.root []) ownDirectory :=
    .start (t := ownDirectory.root) hplain (by decide +kernel)
  have hreached : Reached s "/" w d :=
    .change hstart (.write "/src/B.js" "function B") ⟨"src/B.js", by decide, by decide +kernel⟩ trivial
  have hbelow : c.Below d "/" :=
    ⟨⟨"src", by decide, by decide +kernel⟩, ⟨"skip", by decide, by decide +kernel⟩⟩
  have hother : (d.apply c).readings s "/" ≠ d.readings s "/" := by decide +kernel
  exact ⟨hreached, hbelow, hother, by decide +kernel, missed_iff_hides hreached hbelow hother⟩

end StubDecl.Watcher
