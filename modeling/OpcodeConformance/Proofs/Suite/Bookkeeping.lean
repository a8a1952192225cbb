import Mathlib.Algebra.Ring.Nat
import OpcodeConformance.CommandLine
import OpcodeConformance.Proofs.Action
import OpcodeConformance.Proofs.FileTree
import OpcodeConformance.Proofs.Text

namespace OpcodeConformance

/-- The results hold a report for every case: the failures that were found, none for a case that
passed. -/
structure FileResults.SumsUp (r : FileResults) (reports : List (List Failure)) : Prop where
  passed : r.passed.length = reports.countP (·.isEmpty)
  failed : r.failed.length = reports.countP (!·.isEmpty)
  failures : r.failures = reports.flatten

structure Stats.SumsUp (s : Stats) (reports : List (List Failure)) : Prop where
  passed : s.passed = reports.countP (·.isEmpty)
  failed : s.failed = reports.countP (!·.isEmpty)
  total : s.total = s.passed + s.failed
  failures : s.failures = reports.flatten

namespace FileResults

variable {r : FileResults} {reports : List (List Failure)}

theorem sumsUp_empty (file : String) : (empty file).SumsUp [] := ⟨rfl, rfl, rfl⟩

theorem SumsUp.add (h : r.SumsUp reports) (label : String) (failures : List Failure) :
    (r.add label failures).SumsUp (reports ++ [failures]) := by
  unfold FileResults.add
  cases failures with
  | nil => exact ⟨by simp [h.passed], by simp [h.failed], by simp [h.failures]⟩
  | cons f fs => exact ⟨by simp [h.passed], by simp [h.failed], by simp [h.failures]⟩

end FileResults

namespace Stats

variable {s : Stats} {r : FileResults} {reports reports' : List (List Failure)}

theorem sumsUp_empty : Stats.empty.SumsUp [] := ⟨rfl, rfl, rfl, rfl⟩

theorem SumsUp.add (h : s.SumsUp reports) (h' : r.SumsUp reports') :
    (s.add r).SumsUp (reports ++ reports') where
  passed := by rw [List.countP_append, ← h.passed, ← h'.passed]; rfl
  failed := by rw [List.countP_append, ← h.failed, ← h'.failed]; rfl
  total := by
    change s.total + (r.passed.length + r.failed.length) = s.passed + r.passed.length +
      (s.failed + r.failed.length)
    rw [h.total]
    omega
  failures := by rw [List.flatten_append, ← h.failures, ← h'.failures]; rfl

theorem SumsUp.total_eq (h : s.SumsUp reports) : s.total = reports.length := by
  rw [h.total, h.passed, h.failed, List.length_eq_countP_add_countP (·.isEmpty)]
  simp only [Bool.not_eq_true, Bool.decide_eq_false]

theorem SumsUp.hasFailures_iff (h : s.SumsUp reports) : s.hasFailures = true ↔ 0 < s.failed := by
  rw [h.failed, List.countP_pos_iff, hasFailures, h.failures]
  simp

end Stats

namespace Suite

variable {κ ω : Type} {t : FileTree}

namespace Runner

variable {r : Runner κ ω} {s : ω}

/-- What is reported of a file, for each of its cases in turn. A file that cannot be read is
reported like one case, and the machine is left alone. -/
def reports (r : Runner κ ω) (t : FileTree) (path : String) : StateM ω (List (List Failure)) :=
  match readCases t path with
  | .error e => return [[⟨fileLabel path, "", .setup, e.message⟩]]
  | .ok cases => cases.mapM (r.runCase (fileLabel path))

theorem sumsUp_runCases {file : String} {cs : List Case} {results : FileResults}
    {before : List (List Failure)} (h : results.SumsUp before) :
    (r.runCases file cs results s).1.SumsUp (before ++ (cs.mapM (r.runCase file) s).1) ∧
      (r.runCases file cs results s).2 = (cs.mapM (r.runCase file) s).2 := by
  induction cs generalizing results before s with
  | nil =>
    rw [Action.mapM_nil_apply, List.append_nil]
    exact ⟨h, rfl⟩
  | cons c cs ih =>
    have hstep : r.runCases file (c :: cs) results s = r.runCases file cs
        (results.add c.label (r.runCase file c s).1) (r.runCase file c s).2 := rfl
    rw [hstep, Action.mapM_cons_apply, List.append_cons]
    exact ih (h.add c.label (r.runCase file c s).1)

theorem sumsUp_runFile (r : Runner κ ω) (t : FileTree) (path : String) (s : ω) :
    (r.runFile t path s).1.SumsUp (r.reports t path s).1 ∧
      (r.runFile t path s).2 = (r.reports t path s).2 := by
  unfold runFile reports
  cases readCases t path with
  | error e => exact ⟨⟨rfl, rfl, rfl⟩, rfl⟩
  | ok cases => exact sumsUp_runCases (FileResults.sumsUp_empty _)

theorem sumsUp_runFiles {paths : List String} {stats : Stats} {before : List (List Failure)}
    (h : stats.SumsUp before) :
    (r.runFiles t paths stats s).1.SumsUp (before ++ (paths.mapM (r.reports t) s).1.flatten) ∧
      (r.runFiles t paths stats s).2 = (paths.mapM (r.reports t) s).2 := by
  induction paths generalizing stats before s with
  | nil =>
    rw [Action.mapM_nil_apply, List.flatten_nil, List.append_nil]
    exact ⟨h, rfl⟩
  | cons path paths ih =>
    have hstep : r.runFiles t (path :: paths) stats s = r.runFiles t paths
        (stats.add (r.runFile t path s).1) (r.runFile t path s).2 := rfl
    obtain ⟨hfile, hstate⟩ := sumsUp_runFile r t path s
    rw [hstep, Action.mapM_cons_apply, List.flatten_cons, ← List.append_assoc, hstate]
    exact ih (h.add hfile)

/-- How many cases a file counts for. -/
def caseCount (t : FileTree) (path : String) : Nat :=
  match readCases t path with
  | .error _ => 1
  | .ok cases => cases.length

theorem length_reports (r : Runner κ ω) (t : FileTree) (path : String) (s : ω) :
    (r.reports t path s).1.length = caseCount t path := by
  unfold reports caseCount
  cases readCases t path with
  | error e => rfl
  | ok cases => exact Action.length_mapM _ _ _

theorem length_flatten_reports (r : Runner κ ω) (t : FileTree) (paths : List String) (s : ω) :
    (paths.mapM (r.reports t) s).1.flatten.length = (paths.map (caseCount t)).sum := by
  induction paths generalizing s with
  | nil => rfl
  | cons path paths ih =>
    rw [Action.mapM_cons_apply, List.flatten_cons, List.length_append, length_reports, ih,
      List.map_cons, List.sum_cons]

end Runner

/-- The files to run: the one that a filter names, or else the regular files of the folder with the
extension of tests, in the order of the bytes of their names. -/
inductive Selects (t : FileTree) (folder : String) : Option String → List String → Prop
  | file (name : String) : Selects t folder (some name) [Path.join folder name]
  | folder {place listed names : List String} (hplace : t.find folder = .ok (place, .folder))
      (hlisted : t.names folder = .ok listed)
      (ascending : names.Pairwise fun a b => Bytes.ofString a ≤ Bytes.ofString b)
      (nodup : listed.Nodup → names.Nodup)
      (mem_iff : ∀ name, name ∈ names ↔ name ∈ listed ∧
        t.isFile (Path.join folder name) = true ∧
          ∃ stem : String, stem ≠ "" ∧ name = stem ++ ".json")
      (mem_iff_of_isName : ∀ name, Path.IsName name →
        (Path.join folder name).utf8ByteSize ≤ FileTree.longestPath → (name ∈ names ↔
          (∃ content, t.entry? (place ++ [name]) = some (.file content)) ∧
            ∃ stem : String, stem ≠ "" ∧ name = stem ++ ".json")) :
      Selects t folder none (names.map (Path.join folder))

/-- In a folder the files to run are found. -/
theorem exists_discover {folder : String} (h : t.isFolder folder = true) (filter : Option String) :
    ∃ paths, discover t folder filter = .ok paths ∧ Selects t folder filter paths := by
  cases filter with
  | some file => exact ⟨_, by unfold discover; rw [h]; rfl, .file file⟩
  | none =>
    obtain ⟨place, hfind⟩ := FileTree.isFolder_iff.mp h
    obtain ⟨listed, hlisted, hentries⟩ := FileTree.names_of_find hfind
    let isTest (name : String) : Bool :=
      t.isFile (Path.join folder name) && Path.extension? name = some testExtension
    have hperm : ((listed.filter isTest).mergeSort fun a b => decide (a ≤ b)).Perm
        (listed.filter isTest) := List.mergeSort_perm _ _
    have hmem : ∀ name, name ∈ (listed.filter isTest).mergeSort (fun a b => decide (a ≤ b)) ↔
        name ∈ listed ∧ t.isFile (Path.join folder name) = true ∧
          ∃ stem : String, stem ≠ "" ∧ name = stem ++ ".json" := by
      intro name
      rw [hperm.mem_iff, List.mem_filter, Bool.and_eq_true, decide_eq_true_eq, testExtension,
        Path.extension?_eq_some_iff (by decide)]
      simp only [String.append_assoc]
      rfl
    refine ⟨_, by unfold discover; rw [h, hlisted]; rfl, .folder hfind hlisted ?_ ?_ hmem ?_⟩
    · exact Bytes.pairwise_mergeSort_ofString _
    · intro hnodup
      exact hperm.nodup_iff.mpr (hnodup.filter _)
    · intro name hname hlength
      rw [hmem, FileTree.isFile_join hfind hname hlength, hentries]
      refine ⟨And.right, fun hfile => ⟨?_, hfile⟩⟩
      obtain ⟨⟨content, hentry⟩, -⟩ := hfile
      exact ⟨_, FileTree.mem_of_entry? hentry⟩

namespace Runner

/-- The tests of a folder are run to the end, whatever its files hold and the machine does. Every
case counts once, as passed or as failed, and so does a file that cannot be read. The failures are
those of the cases one after the other, and the program ends with status one if and only if a case
has failed. -/
theorem run_bookkeeping (r : Runner κ ω) {t : FileTree}
    (h : t.isFolder r.settings.folder = true) (s : ω) :
    ∃ paths stats, discover t r.settings.folder r.settings.filter = .ok paths ∧
      Selects t r.settings.folder r.settings.filter paths ∧
      let reports := paths.mapM (r.reports t) s
      r.run t s = (.ok stats, reports.2) ∧
      stats.total = stats.passed + stats.failed ∧
      stats.total = (paths.map (caseCount t)).sum ∧
      stats.failed = reports.1.flatten.countP (!·.isEmpty) ∧
      stats.failures = reports.1.flatten.flatten ∧
      (stats.hasFailures = true ↔ 0 < stats.failed) ∧
      ((CommandLine.Outcome.ran stats).status = 1 ↔ 0 < stats.failed) := by
  obtain ⟨paths, hdiscover, hselects⟩ := exists_discover h r.settings.filter
  obtain ⟨hsums, hstate⟩ := sumsUp_runFiles (r := r) (t := t) (s := s) Stats.sumsUp_empty
  refine ⟨paths, (r.runFiles t paths .empty s).1, hdiscover, hselects, ?_, hsums.total, ?_,
    hsums.failed, hsums.failures, hsums.hasFailures_iff, ?_⟩
  · unfold run
    rw [hdiscover, ← hstate]
    rfl
  · rw [hsums.total_eq, List.nil_append, length_flatten_reports]
  · rw [← hsums.hasFailures_iff, CommandLine.Outcome.status]
    split <;> simp_all

/-- A machine that takes every request, and has nothing but zeros in its memory. -/
def quiet : Machine Unit Unit where
  create _ _ _ := pure ()
  receive _ := pure ()
  attach := pure ()
  call _ _ := pure (some 0)
  write _ _ := pure ()
  read _ len := pure (List.replicate len 0)
  settle := pure ()
  gasLeft _ := 0
  returnValue _ := none

def quietRunner : Runner Unit Unit :=
  ⟨{ Settings.default with folder := "/tests" }, ⟨fun _ => .ok ([], []), fun _ _ _ => .ok ""⟩,
    fun _ => .ok (), quiet⟩

/-- A folder with a file that is broken, one with two cases, and one that is no test file. -/
def mixedFiles : FileTree :=
  let cases := Bytes.ofString "[[\"A\"], [\"B\", \"\", [], [], [], [[\"1\"]]]]"
  ((FileTree.empty.insert ["tests", "b.json"] (.file cases)).insert
    ["tests", "notes.txt"] (.file [])).insert ["tests", "a.json"] (.file (Bytes.ofString "["))

/-- The broken file counts as a failed case, and one of the two cases expects what is not there. -/
theorem run_bookkeeping_mixed :
    ∃ stats, (quietRunner.run mixedFiles ()).1 = .ok stats ∧ stats.total = 3 ∧ stats.failed = 2 ∧
      stats.failures.map (fun f => (f.file, f.label, f.field)) =
        [("a.json", "", .setup), ("b.json", "B", .stack 0)] ∧
      (CommandLine.Outcome.ran stats).status = 1 := by
  have hfolder : mixedFiles.isFolder "/tests" = true := by decide +kernel
  have hpaths : discover mixedFiles "/tests" none = .ok ["/tests/a.json", "/tests/b.json"] := by
    have hlisted : mixedFiles.names "/tests" = .ok ["b.json", "notes.txt", "a.json"] := by
      decide +kernel
    have hfilter : ["b.json", "notes.txt", "a.json"].filter (fun name =>
        mixedFiles.isFile (Path.join "/tests" name) &&
          Path.extension? name = some testExtension) = ["b.json", "a.json"] := by decide +kernel
    have hsorted : ["b.json", "a.json"].mergeSort (fun a b => decide (a ≤ b)) =
        ["a.json", "b.json"] := by simp [List.mergeSort]
    unfold discover
    rw [hfolder, hlisted]
    simp only [Except.mapError, bind, Except.bind, hfilter, hsorted]
    rfl
  obtain ⟨paths, stats, hdiscover, -, hrun, -, htotal, hfailed, hfailures, -, hstatus⟩ :=
    run_bookkeeping quietRunner hfolder ()
  cases hpaths.symm.trans hdiscover
  have hreports : (["/tests/a.json", "/tests/b.json"].mapM (quietRunner.reports mixedFiles)
      ()).1.flatten.countP (!·.isEmpty) = 2 := by decide +kernel
  have htwo : stats.failed = 2 := hfailed.trans hreports
  refine ⟨stats, by rw [hrun], ?_, htwo, ?_, hstatus.mpr (by rw [htwo]; decide)⟩
  · rw [htotal]
    decide +kernel
  · rw [hfailures]
    decide +kernel

end Runner

end Suite

end OpcodeConformance
