import OpcodeConformance.Library

namespace OpcodeConformance

/-- A source of opcode functions: it resolves names to declarations, and assembles declarations. -/
structure Compiler where
  resolve : List String → Except LibraryError (List String × List String)
  build : List String → List String → List String → Except LibraryError String

def Library.compiler (l : Library) : Compiler := ⟨l.resolve, l.build⟩

abbrev Toolchain (κ : Type) := String → Except CompileError κ

namespace Synthesis

def setStackPointer : String :=
  "(func $setSP (export \"setSP\") (param i32) (global.set $sp (local.get 0)))"

def gasImport : String := "(import \"ethereum\" \"useGas\" (func $useGas (param i64)))"

def moduleText (c : Compiler) (op : String) : Except LibraryError String := do
  let (functions, imports) ← c.resolve [op]
  c.build (functions ++ [setStackPointer]) (imports ++ [gasImport]) [op]

def code {κ : Type} (c : Compiler) (t : Toolchain κ) (op : String) : Except LibraryError κ := do
  (t (← moduleText c op)).mapError .compile

end Synthesis

end OpcodeConformance
