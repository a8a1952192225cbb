namespace OpcodeConformance

structure Settings where
  folder : String
  filter : Option String
  /-- The address of the opcode machine's memory in linear memory. -/
  memoryBase : Nat
  gas : UInt64
  deriving DecidableEq, Repr

namespace Settings

/-- Where the opcode machine's memory begins, behind room for its stack. -/
def defaultMemoryBase : Nat := 33832

def defaultGas : UInt64 := 1000000

def defaultFolder : String := "/usr/share/opcode-conformance/opcode"

def default : Settings := ⟨defaultFolder, none, defaultMemoryBase, defaultGas⟩

end Settings

end OpcodeConformance
