import OpcodeConformance.Library.Shipped
import OpcodeConformance.Suite
import OpcodeConformance.Suite.Shipped

namespace OpcodeConformance.CommandLine

inductive Request where
  | run (filter : Option String)
  | help
  | version
  | misuse
  deriving DecidableEq, Repr

/-- Whether an argument can be the value of an option. A single dash can. -/
def isValue (arg : String) : Bool := arg = "-" || arg.toList.head? ≠ some '-'

def fileOption : String := "--file"
def fileAssignment : List Char := fileOption.toList ++ ['=']

def shortOption? (arg : String) : Option Char :=
  match arg.toList with
  | '-' :: c :: _ => some c
  | _ => none

/-- Reads arguments from left to right; `filter` is what was read before. -/
def parse (filter : Option String) : List String → Request
  | [] => .run filter
  | arg :: args =>
    if arg = fileOption then
      match args with
      | value :: args =>
        if isValue value && filter.isNone then parse (some value) args else .misuse
      | [] => .misuse
    else if fileAssignment.isPrefixOf arg.toList then
      let value := String.ofList (arg.toList.drop fileAssignment.length)
      if filter.isNone then parse (some value) args else .misuse
    else if arg = "--" then if args.isEmpty then .run filter else .misuse
    else if arg = "--help" then .help
    else if arg = "--version" then .version
    else
      match shortOption? arg with
      | some 'h' => .help
      | some 'V' => .version
      | _ => .misuse

def versionText : String := "opcode-runner 0.1.0"

def helpText : List String := [
  "Conformance tests for EVM opcodes compiled to WebAssembly",
  "",
  "Usage: opcode-runner [OPTIONS]",
  "",
  "Options:",
  "      --file <FILE>  Run a single test file from the test directory",
  "  -h, --help         Print help",
  "  -V, --version      Print version"]

def misuseText : List String :=
  ["Usage: opcode-runner [OPTIONS]", "", "For more information, try '--help'."]

inductive Outcome where
  /-- Lines to be printed, with the exit status zero. -/
  | told (lines : List String)
  | misused
  | ran (s : Stats)
  | failed (e : HarnessError)

def Outcome.status : Outcome → Nat
  | told _ => 0
  | misused => 2
  | ran s => if s.hasFailures then 1 else 0
  | failed _ => 1

def Outcome.lines (seconds : Float) : Outcome → List String
  | told lines => lines
  | misused => []
  | ran s => s.summary seconds
  | failed _ => []

def runner (filter : Option String) : Suite.Runner Binary Contract :=
  ⟨{ Settings.default with filter }, Library.shipped.compiler, .module, .contract⟩

def idle : Contract := .new (.bytes []) .empty .zero

def execute (args : List String) : Outcome :=
  match parse none args with
  | .help => .told helpText
  | .version => .told [versionText]
  | .misuse => .misused
  | .run filter =>
    match (runner filter).run Suite.Shipped.tree idle with
    | (.ok s, _) => .ran s
    | (.error e, _) => .failed e

end OpcodeConformance.CommandLine
