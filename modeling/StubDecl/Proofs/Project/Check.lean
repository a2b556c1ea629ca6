import StubDecl.Command.Answer
import StubDecl.Proofs.File.Change
import StubDecl.Proofs.File.Creation
import StubDecl.Proofs.Run.Accounting
import StubDecl.Proofs.Run.Uncached
import StubDecl.Proofs.Scan.Declaration

/-!
# What a check says about a conversion

A conversion without a cache comes to what a check came to, unless it finds its own output: it opens the
file for the output, and so empties it, before it walks the directory (`Answer.convert_eq_check`). If it
finds the file, it reads what it has written itself, which cannot be converted again unless there is a
header (`Project.convertTo_finds`).
-/

namespace StubDecl

/-! ## Reading what has been written -/

namespace Job

variable {κ κ₀ : Type} {j : Job κ₀} {w : Surroundings} {total i : Nat} {file : SourceFile}
  {files : List SourceFile} {s : RunState κ}

/-- What a run may have written: nothing, or a declaration and more. -/
def Written (t : Text) : Prop :=
  t = [] ∨ ∃ m y path content block summary u,
    convertFile m y path content = .ok (block, summary) ∧ t = block ++ u

theorem Written.append {t : Text} (h : Written t) {m : TypeTable} {y : Style}
    {path content block : Text} {summary : Summary}
    (hok : convertFile m y path content = .ok (block, summary)) : Written (t ++ block) := by
  obtain rfl | ⟨m', y', path', content', block', summary', u, hok', rfl⟩ := h
  · exact .inr ⟨m, y, path, content, block, summary, [], hok, (List.append_nil block).symm⟩
  · exact .inr ⟨m', y', path', content', block', summary', u ++ block, hok', List.append_assoc ..⟩

/-- Nothing that has been written can be converted. -/
theorem Written.convertFile_eq_error {t : Text} (h : Written t) (m : TypeTable) (y : Style) (path : Text) :
    ∃ f, convertFile m y path t = .error f := by
  obtain rfl | ⟨_, _, _, _, block, _, u, hok, rfl⟩ := h
  · exact ⟨_, rfl⟩
  · exact convertFile_declaration hok m y path u

theorem exists_of_produce_uncached {c c' : κ} {content : Text} {d : Text × Summary × Bool}
    (h : (j.uncached κ).produce c file content = (c', .ok d)) :
    ∃ summary, convertFile j.table j.style file.path content = .ok (d.1, summary) := by
  rw [produce_uncached] at h
  obtain ⟨⟨block, summary⟩, hok, rfl⟩ := Outcome.map_eq_ok (Prod.mk.inj h).2
  exact ⟨summary, hok⟩

/-- A run that comes to a file that holds what has been written fails there, if not before. -/
theorem convertFrom_ne_none (hmem : file ∈ files) (hself : ∀ t, w.read t file.path = .ok t)
    (hs : Written s.output) : ((j.uncached κ).convertFrom w total i files s).2 ≠ none := by
  induction files generalizing i s with
  | nil => cases hmem
  | cons next files ih =>
    cases hstop : w.stop i with
    | some f =>
      rw [convertFrom, hstop]
      exact Option.some_ne_none f
    | none =>
      obtain ⟨content, d, c, hr, hp, hone⟩ | ⟨c, f, hone, -⟩ :=
        convertOne_outcome (j.uncached κ) total next s hstop
      · obtain ⟨summary, hok⟩ := exists_of_produce_uncached hp
        rw [convertFrom_of_delivered hstop hone]
        obtain rfl | hmem := List.mem_cons.mp hmem
        · obtain rfl : s.output = content := Except.ok.inj ((hself s.output).symm.trans hr)
          obtain ⟨f, hf⟩ := hs.convertFile_eq_error j.table j.style file.path
          rw [hf] at hok
          cases hok
        · exact ih hmem (hs.append hok)
      · rw [convertFrom_of_broken hstop hone]
        exact Option.some_ne_none f

theorem run_failure_ne_none (hmem : file ∈ files) (hself : ∀ t, w.read t file.path = .ok t) (c : κ) :
    ((j.uncached κ).run w (.ok files) c).failure ≠ none := by
  have hfrom : ((j.uncached κ).convertFrom w files.length 0 files { cache := c }).2 ≠ none :=
    convertFrom_ne_none hmem hself (.inl rfl)
  cases hr : (j.uncached κ).convertFrom w files.length 0 files { cache := c } with
  | mk t failure =>
    rw [hr] at hfrom
    obtain ⟨f, rfl⟩ := Option.ne_none_iff_exists'.mp hfrom
    rw [run_of_broken hr]
    exact Option.some_ne_none f

end Job

/-! ## A conversion beside a check -/

namespace Project

/-- The walk of a directory finds the file at a place, if there is one. -/
def Finds (p : Project) (d : Disk) (source : Text) (place : List Text) : Prop :=
  ∃ rel, place = d.ownPlace (d.absolute source) ++ rel ∧ p.settings.scope.Admits rel

variable {p : Project} {d d' : Disk} {canceled : Bool} {source : Text} {top : List Text} {out : OutputFile}

theorem job_uncached (p : Project) (κ : Type) :
    p.job (none : Option (BlockCache κ)) = (p.job (none : Option (BlockCache PUnit))).uncached κ := rfl

/-- A file that is not the output reads the same all through a conversion. -/
theorem read_eq_of_ne (hd : d.Plain) (hout : d.Holding d' out.place out.text) {q : List Text} {l : Leaf}
    (hq : q ≠ out.place) (hleaf : d.root.node? q = some (.leaf l)) (written : Text) :
    (surroundings (fun written => (out.append written).flush d') canceled).read written (Path.rooted q) =
      (surroundings (fun _ => d) canceled).read written (Path.rooted q) :=
  (hout.flush (out.text ++ written)).contentOf_eq hd hq hleaf

/-- **A conversion that does not find its output comes to what a check came to.** -/
theorem convertTo_eq_check (hd : d.Plain) (htop : d.Leads source top)
    (hout : d.Holding d' out.place out.text) (hfinds : ¬p.Finds d source out.place) :
    p.convertTo d' canceled source out none ({} : BlockStore) =
      ((out.append (p.check d canceled source).output).flush d',
        (p.check d canceled source).withCache {}) := by
  have hne : ∀ rel, p.settings.scope.Admits rel → top ++ rel ≠ out.place := fun rel hadmits hplace =>
    hfinds ⟨rel, by rw [htop.ownPlace_eq, hplace], hadmits⟩
  have hsources : d'.sources p.settings.scope source = d.sources p.settings.scope source :=
    ((hout.leads htop).sources_congr htop fun rel hadmits => exists_congr fun l =>
      hout.leaves (top ++ rel) l (hne rel hadmits))
  obtain ⟨files, hfiles, hmem, -⟩ := htop.exists_sources p.settings.scope
  have hrun : (p.job none).run (surroundings (fun written => (out.append written).flush d') canceled)
      (d.sources p.settings.scope source) ({} : BlockStore) =
      (p.check d canceled source).withCache {} := by
    rw [job_uncached]
    refine Job.run_uncached ?stop ?append (fun files' hfiles' file hfile written => ?read) PUnit.unit
      ({} : BlockStore)
    case stop | append => rfl
    case read =>
      obtain rfl : files = files' := Except.ok.inj (hfiles.symm.trans hfiles')
      obtain ⟨rel, l, hleaf, hadmits, rfl⟩ := (hmem file).mp hfile
      exact read_eq_of_ne hd hout (hne rel hadmits) hleaf written
  simp only [convertTo, hsources, hrun]
  rfl

/-- A conversion without a header that finds its output fails. -/
theorem convertTo_finds (htop : d.Leads source top) (hout : d.Holding d' out.place out.text)
    (hfinds : p.Finds d source out.place) (hempty : out.text = []) :
    (p.convertTo d' canceled source out none ({} : BlockStore)).2.failure ≠ none := by
  obtain ⟨rel, hplace, hadmits⟩ := hfinds
  rw [htop.ownPlace_eq] at hplace
  obtain ⟨files, hfiles, hmem, -⟩ := (hout.leads htop).exists_sources p.settings.scope
  have hown : (⟨Path.rooted out.place, Path.relative rel⟩ : SourceFile) ∈ files :=
    (hmem _).mpr ⟨rel, _, hplace ▸ hout.here, hadmits, by rw [hplace]⟩
  have hself : ∀ written, (surroundings (fun written => (out.append written).flush d') canceled).read
      written (Path.rooted out.place) = .ok written := by
    intro written
    have hread := (hout.flush (out.text ++ written)).contentOf_place
    exact hread.trans (by rw [hempty, List.nil_append])
  simp only [convertTo, hfiles]
  rw [job_uncached]
  exact Job.run_failure_ne_none hown hself _

/-! ## Opening the directory and the output -/

/-- The directory that is converted is there. -/
theorem stat_of_sourceDir {path : Option Text} (h : p.sourceDir d path = .ok source) :
    ∃ t, d.stat source = .ok (.dir t) := by
  simp only [sourceDir] at h
  split at h
  · simp only [Disk.refused] at h
    cases h
  · cases h
  · next t hstat =>
    cases h
    exact ⟨t, hstat⟩

theorem holding_openOutput (hd : d.Plain) {output : Text} (h : p.openOutput d output = .ok (d', out)) :
    d.Holding d' out.place out.text ∧ out.text = OutputFile.headerText p.settings.convert.header := by
  rw [openOutput] at h
  obtain ⟨hhold, htext⟩ := hd.holding_create (Outcome.mapError_eq_ok h)
  exact ⟨htext ▸ hhold, htext⟩

theorem convert_noCache {output : Text} (h : p.openOutput d output = .ok (d', out)) :
    p.convert d canceled true source output = .ok
      { disk := (p.convertTo d' canceled source out none ({} : BlockStore)).1
        report := (p.convertTo d' canceled source out none ({} : BlockStore)).2 } := by
  simp only [convert, cacheFor, Bool.not_true, Bool.and_false, Bool.false_eq_true, if_false, h, convertWith]

end Project

/-! ## The answers -/

/-- An answer to a check says what the answer to a conversion is: they fail in the same way, or they
report the same statistics and the output holds the header and as many bytes as were counted. -/
structure Answer.Foretells (checked converted : Answer) (place : List Text) (header : Text) : Prop where
  failure : converted.failure = checked.failure
  err : converted.err = checked.err
  success : checked.failure = none →
    ∃ (stats : RunStats) (files : Nat) (blocks listing source output : Text),
      checked.out = listing ++ stats.checkText files blocks.length ∧
      converted.out = "Converting " ++ source ++ "...\n" ++ "\nConversion complete:\n" ++ stats.text ++
        "\nDeclarations written to: " ++ output ++ "\n" ∧
      converted.disk.root.node? place = some (.leaf (.file (OutputFile.headerText header ++ blocks)))

namespace Answer

variable {p : Project} {d d' : Disk} {w : Occasion} {o : Options} {path : Option Text} {source : Text}
  {out : OutputFile}

theorem toConvert_noCache (hno : o.noCache = true) (hsource : p.sourceDir d path = .ok source)
    (hopen : p.openOutput d (p.outputPath d o.output) = .ok (d', out)) :
    toConvert p d w o path = ofConversion
      { disk := (p.convertTo d' w.canceled source out none ({} : BlockStore)).1
        report := (p.convertTo d' w.canceled source out none ({} : BlockStore)).2 }
      source (p.outputPath d o.output) := by
  simp only [toConvert, hsource, hno, Project.convert_noCache hopen]

section Foretells

variable {r : RunReport PUnit} {disk : Disk} {place : List Text} {header : Text} (source output : Text)

/-- A run that fails is reported in the same way, wherever its output went. -/
theorem foretells_of_failure {f : Failure} (hr : r.failure = some f) (d disk : Disk) (place : List Text)
    (header : Text) :
    (ofFailedRun d r f []).Foretells
      (ofConversion { disk := disk, report := r.withCache ({} : BlockStore) } source output) place header := by
  have hwith : (r.withCache ({} : BlockStore)).failure = some f := hr
  simp only [ofConversion, hwith]
  exact ⟨rfl, rfl, fun h => absurd h (Option.some_ne_none _)⟩

theorem foretells_of_success (hr : r.failure = none)
    (hhere : disk.root.node? place = some (.leaf (.file (OutputFile.headerText header ++ r.output))))
    (d : Disk) (list : Bool) :
    ({ disk := d, out := checkOutput r list } : Answer).Foretells
      (ofConversion { disk := disk, report := r.withCache ({} : BlockStore) } source output) place header := by
  have hwith : (r.withCache ({} : BlockStore)).failure = none := hr
  have hrebuilt : rebuiltText [] = [] := rfl
  simp only [ofConversion, hwith]
  refine ⟨rfl, rfl, fun _ => ⟨(r.result.getD ({}, [])).1, (r.result.getD ({}, [])).2.length, r.output, _,
    source, output, rfl, ?_, hhere⟩⟩
  simp only [RunReport.withCache, hrebuilt, List.nil_append, List.append_nil]

end Foretells

/-- **A check foretells a conversion without a cache** that does not find its output. One that finds it
fails, unless there is a header, whatever the check came to. -/
theorem convert_eq_check (hd : d.Plain) (hno : o.noCache = true)
    (hopen : p.openOutput d (p.outputPath d o.output) = .ok (d', out)) :
    ((∀ source, p.sourceDir d path = .ok source → ¬p.Finds d source out.place) →
        (toCheck p d w o path).Foretells (toConvert p d w o path) out.place p.settings.convert.header) ∧
      ∀ source, p.sourceDir d path = .ok source → p.Finds d source out.place →
        p.settings.convert.header = [] → (toConvert p d w o path).failure ≠ none := by
  obtain ⟨hhold, htext⟩ := Project.holding_openOutput hd hopen
  have hleads : ∀ source, p.sourceDir d path = .ok source → ∃ top, d.Leads source top := by
    intro source hsource
    obtain ⟨t, hstat⟩ := Project.stat_of_sourceDir hsource
    exact hd.leads_of_stat hstat
  refine ⟨fun hfinds => ?_, fun source hsource hfinds hheader => ?_⟩
  · cases hsource : p.sourceDir d path with
    | error f =>
      simp only [toCheck, toConvert, hsource]
      exact ⟨rfl, rfl, fun h => absurd h (Option.some_ne_none f)⟩
    | ok source =>
      obtain ⟨top, htop⟩ := hleads source hsource
      rw [toConvert_noCache hno hsource hopen,
        Project.convertTo_eq_check hd htop hhold (hfinds source hsource)]
      simp only [toCheck, hsource]
      generalize p.check d w.canceled source = r
      have hhere : ((out.append r.output).flush d').root.node? out.place =
          some (.leaf (.file (OutputFile.headerText p.settings.convert.header ++ r.output))) := by
        rw [← htext]
        exact (hhold.flush (out.text ++ r.output)).here
      cases hfailure : r.failure with
      | some f => exact foretells_of_failure source _ hfailure ..
      | none => exact foretells_of_success source _ hfailure hhere d o.list
  · obtain ⟨top, htop⟩ := hleads source hsource
    rw [toConvert_noCache hno hsource hopen]
    have hempty : out.text = [] := by
      rw [htext, hheader]
      rfl
    have hfailure : (p.convertTo d' w.canceled source out none ({} : BlockStore)).2.failure ≠ none :=
      Project.convertTo_finds htop hhold hfinds hempty
    obtain ⟨f, hf⟩ := Option.ne_none_iff_exists'.mp hfailure
    simp only [ofConversion, hf]
    exact Option.some_ne_none _

/-- The output file lies among the stub files: the check succeeds, and the conversion does not. -/
theorem convert_eq_check_ownOutput :
    (toCheck { dir := "/" } (({} : Disk).apply (.write "/A.js" "function A")) {}
        { noCache := true, output := "out.js" } none).failure = none ∧
      (toConvert { dir := "/" } (({} : Disk).apply (.write "/A.js" "function A")) {}
        { noCache := true, output := "out.js" } none).failure ≠ none := by
  have hplain : (({} : Disk).apply (.write "/A.js" "function A")).Plain := Disk.plain_empty.write _ _
  have hopen :
      ({ dir := "/" } : Project).openOutput (({} : Disk).apply (.write "/A.js" "function A")) "/out.js" =
        .ok ((({} : Disk).apply (.write "/A.js" "function A")).withLeaf ["out.js"] (.file []),
          ⟨["out.js"], []⟩) := by
    rfl
  have hadmits : ({} : Settings).scope.Admits ["out.js"] :=
    ⟨by decide +kernel, Scope.entersFrom_nil _ []⟩
  exact ⟨by decide +kernel,
    (convert_eq_check hplain rfl hopen).2 "/" rfl ⟨["out.js"], rfl, hadmits⟩ rfl⟩

end Answer

end StubDecl
