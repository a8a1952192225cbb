import OpcodeConformance.Library.Error
import OpcodeConformance.Text.Blank

namespace OpcodeConformance.ModuleText

/-- The entries of a list without those equal to an earlier one. -/
def distinct (items : List String) : List String :=
  (items.foldl (fun kept x => if kept.contains x then kept else x :: kept) []).reverse

/-- The declaration of the stack pointer, the address of the uppermost word. It starts below an empty
stack. -/
def stackPointer : String := "(global $sp (mut i32) (i32.const -32))"

def memory (pages : Nat) : String := s!"(memory {Decimal.ofNat pages})"

def memoryExport : String := "(export \"memory\" (memory 0))"

def functionExport (name : String) : String := s!"(export \"{name}\" (func ${name}))"

/-- What the module contains, in order. Declarations that are given are trimmed of blanks. -/
def entries (functions imports exports : List String) (pages : Nat) : List (List Char) :=
  (distinct imports).map (fun s => Text.trim s.toList)
    ++ [stackPointer.toList, (memory pages).toList, memoryExport.toList]
    ++ (distinct functions).map (fun s => Text.trim s.toList)
    ++ (distinct exports).map (fun s => (functionExport s).toList)

def line (entry : List Char) : List Char := ' ' :: ' ' :: (entry ++ ['\n'])

def build (functions imports exports : List String) (pages : Nat) :
    Except LibraryError String :=
  if exports.isEmpty then .error .noExports
  else
    .ok (String.ofList
      ("(module\n".toList ++ (entries functions imports exports pages).flatMap line ++ [')']))

def defaultPages : Nat := 2

end OpcodeConformance.ModuleText
