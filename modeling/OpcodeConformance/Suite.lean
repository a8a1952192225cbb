import OpcodeConformance.Dispatch
import OpcodeConformance.FileTree
import OpcodeConformance.Settings
import OpcodeConformance.Suite.Stats
import OpcodeConformance.Synthesis

namespace OpcodeConformance

namespace Suite

def testExtension : String := "json"

/-- The files to run. With a filter that is one file, whether it exists or not. -/
def discover (t : FileTree) (folder : String) (filter : Option String) :
    Except HarnessError (List String) :=
  if !t.isFolder folder then .error (.notFound folder)
  else
    match filter with
    | some file => .ok [Path.join folder file]
    | none => do
      let names ← (t.names folder).mapError .unreadable
      let isTest (name : String) : Bool :=
        t.isFile (Path.join folder name) && Path.extension? name = some testExtension
      return ((names.filter isTest).mergeSort fun a b => decide (a ≤ b)).map (Path.join folder ·)

def readCases (t : FileTree) (path : String) : Except HarnessError (List Case) := do
  let text ← (t.readText path).mapError .unreadable
  (Case.listOfDocument (Bytes.ofString text)).mapError .json

structure Runner (κ ω : Type) where
  settings : Settings
  compiler : Compiler
  toolchain : Toolchain κ
  machine : Machine κ ω

namespace Runner

variable {κ ω : Type}

def prepare (r : Runner κ ω) (c : Case) : Except HarnessError (κ × Context × PreparedInput) := do
  let code ← (Synthesis.code r.compiler r.toolchain c.op).mapError .ofLibrary
  let context ← Context.build r.settings.gas c.environment
  return (code, context, ← PreparedInput.ofInput c.input)

def observe (r : Runner κ ω) (c : Case) (code : κ) (context : Context) (i : PreparedInput) :
    Action HarnessError ω Observation := do
  let pointer ← Dispatch.execute r.machine r.settings.memoryBase code context i c.op c.params
  let s ← get
  let left := r.machine.gasLeft s
  let used := if left ≤ context.message.gas then context.message.gas - left else 0
  r.machine.attach.mapError .ofFault
  return ⟨pointer, r.machine.returnValue s, used⟩

/-- The failures of a case: one if it cannot be prepared or run, and else those of its verdict. -/
def runCase (r : Runner κ ω) (file : String) (c : Case) : StateM ω (List Failure) := fun s =>
  match r.prepare c with
  | .error e => ([Verdict.failure file c (.setup, e.message)], s)
  | .ok (code, context, i) =>
    match r.observe c code context i s with
    | (.error e, s) => ([Verdict.failure file c (.execution, e.message)], s)
    | (.ok o, s) => Verdict.check r.machine r.settings.memoryBase file c o s

def runCases (r : Runner κ ω) (file : String) : List Case → FileResults → StateM ω FileResults
  | [], results => return results
  | c :: cs, results => do
    let failures ← r.runCase file c
    runCases r file cs (results.add c.label failures)

/-- What reports call a file: its name, or its path if that does not end in a name. -/
def fileLabel (path : String) : String := (Path.fileName? path).getD path

/-- Runs all cases of a file. A file that cannot be read counts as one failed case. -/
def runFile (r : Runner κ ω) (t : FileTree) (path : String) : StateM ω FileResults :=
  let file := fileLabel path
  match readCases t path with
  | .error e => return ⟨file, [], [file], [⟨file, "", .setup, e.message⟩]⟩
  | .ok cases => r.runCases file cases (.empty file)

def runFiles (r : Runner κ ω) (t : FileTree) : List String → Stats → StateM ω Stats
  | [], stats => return stats
  | path :: paths, stats => do
    let results ← r.runFile t path
    runFiles r t paths (stats.add results)

def run (r : Runner κ ω) (t : FileTree) : Action HarnessError ω Stats := fun s =>
  match discover t r.settings.folder r.settings.filter with
  | .error e => (.error e, s)
  | .ok paths =>
    let (stats, s) := r.runFiles t paths .empty s
    (.ok stats, s)

end Runner

end Suite

end OpcodeConformance
