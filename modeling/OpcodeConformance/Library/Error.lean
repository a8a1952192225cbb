import OpcodeConformance.FileTree
import OpcodeConformance.Json.Problem

namespace OpcodeConformance

structure CompileError where
  reason : String
  deriving DecidableEq, Repr

def CompileError.message (e : CompileError) : String := s!"wat compile error: {e.reason}"

inductive LibraryError where
  | unknownFunction (name : String)
  | unknownImport (function import_ : String)
  | missingBody (name path : String)
  | noExports
  | unreadable (p : FileProblem)
  | manifest (p : Json.Problem)
  | compile (e : CompileError)
  deriving DecidableEq, Repr

def LibraryError.message : LibraryError → String
  | unknownFunction name => s!"unknown function: {name}"
  | unknownImport function import_ => s!"function {function} uses undeclared import {import_}"
  | missingBody name path => s!"missing body for {name}: {path}"
  | noExports => "module has no exports"
  | unreadable p => s!"IO error: {p.message}"
  | manifest p => s!"manifest error: {p.message}"
  | compile e => e.message

end OpcodeConformance
