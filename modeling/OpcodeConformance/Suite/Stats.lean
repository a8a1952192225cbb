import OpcodeConformance.Decimal.Fixed
import OpcodeConformance.Verdict

namespace OpcodeConformance

structure FileResults where
  file : String
  passed : List String
  /-- The labels of the cases that failed; the name of the file if it could not be read. -/
  failed : List String
  failures : List Failure
  deriving DecidableEq, Repr

namespace FileResults

def empty (file : String) : FileResults := ⟨file, [], [], []⟩

def total (r : FileResults) : Nat := r.passed.length + r.failed.length

def add (r : FileResults) (label : String) (failures : List Failure) : FileResults :=
  if failures.isEmpty then { r with passed := r.passed ++ [label] }
  else { r with failed := r.failed ++ [label], failures := r.failures ++ failures }

end FileResults

structure Stats where
  total : Nat
  passed : Nat
  failed : Nat
  failures : List Failure
  deriving DecidableEq, Repr

namespace Stats

def empty : Stats := ⟨0, 0, 0, []⟩

def add (s : Stats) (r : FileResults) : Stats :=
  ⟨s.total + r.total, s.passed + r.passed.length, s.failed + r.failed.length,
    s.failures ++ r.failures⟩

def hasFailures (s : Stats) : Bool := !s.failures.isEmpty

/-- How many cases of a hundred passed. It is a hundred if there are no cases. -/
def passRate (s : Stats) : Float :=
  if s.total = 0 then 100 else Float.ofNat s.passed / Float.ofNat s.total * 100

def rule : String := String.ofList (List.replicate 40 '=')

def summary (s : Stats) (seconds : Float) : List String :=
  ["",
   rule,
   "Opcode Test Summary",
   rule,
   s!"Total:   {Decimal.ofNat s.total}",
   s!"Passed:  {Decimal.ofNat s.passed}",
   s!"Failed:  {Decimal.ofNat s.failed}",
   s!"Pass Rate: {Decimal.fixed s.passRate}%",
   s!"Duration: {Decimal.fixed seconds}s"]
  ++ if s.failures.isEmpty then []
     else "" :: "Failed assertions:" :: s.failures.map fun f => "  - " ++ f.text

end Stats

end OpcodeConformance
