import OpcodeConformance.Machine.Scripted
import OpcodeConformance.Main
import OpcodeConformance.Wasm.Counting.Rounds
import OpcodeConformance.Proofs.Dispatch
import OpcodeConformance.Proofs.Contract.Accounting
import OpcodeConformance.Proofs.Contract.History
import OpcodeConformance.Proofs.Contract.Refusal
import OpcodeConformance.Proofs.Bytes
import OpcodeConformance.Proofs.Context
import OpcodeConformance.Proofs.Library
import OpcodeConformance.Proofs.Memory
import OpcodeConformance.Proofs.Opcode.Addition
import OpcodeConformance.Proofs.Opcode.Addition.Session
import OpcodeConformance.Proofs.Opcode.Priming
import OpcodeConformance.Proofs.Priming
import OpcodeConformance.Proofs.StateTree.Hash
import OpcodeConformance.Proofs.Suite.Addition
import OpcodeConformance.Proofs.Suite.Bookkeeping
import OpcodeConformance.Proofs.Contract.Environment
import OpcodeConformance.Proofs.Opcode.Functions
import OpcodeConformance.Proofs.Opcode.Underflow
import OpcodeConformance.Proofs.Suite.Underflow
import OpcodeConformance.Proofs.Contract.Settlement
import OpcodeConformance.Proofs.Library.Resolution
import OpcodeConformance.Proofs.Requirement
import OpcodeConformance.Proofs.Opcode.Program
import OpcodeConformance.Proofs.Opcode.Storing
import OpcodeConformance.Proofs.Opcode.Returning
import OpcodeConformance.Proofs.Library.Locality
import OpcodeConformance.Proofs.Contract.HostCall
import OpcodeConformance.Proofs.Opcode.Reversal
import OpcodeConformance.Proofs.Opcode.Pushing
import OpcodeConformance.Proofs.Library.ModuleText
import OpcodeConformance.Proofs.Library.Lookup
import OpcodeConformance.Proofs.Contract.Arguments
import OpcodeConformance.Proofs.StateTree.Writes
import OpcodeConformance.Proofs.Hex.Decoding
import OpcodeConformance.Proofs.Contract.StoredBlock
import OpcodeConformance.Proofs.Word.Canonical
import OpcodeConformance.Proofs.Address
import OpcodeConformance.Proofs.StateTree.Accounts
