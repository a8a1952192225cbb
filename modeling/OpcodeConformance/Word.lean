import OpcodeConformance.Machine

namespace OpcodeConformance.Word

def size : Nat := 32

/-- The bytes of a text in base 16, with zeros in front up to `len` bytes. -/
def ofHex (s : String) (len : Nat) : Except HarnessError Bytes := do
  let bs ← (decodeHex s).mapError HarnessError.ofEncoding
  if bs.length ≤ len then return List.replicate (len - bs.length) 0 ++ bs
  else throw (.valueTooLarge bs.length len)

def bytesOfHex (s : String) : Except HarnessError Bytes :=
  (decodeHex s).mapError HarnessError.ofEncoding

/-- Linear memory keeps the least significant byte of a word first. -/
def memoryOrder (bs : Bytes) : Bytes := bs.reverse

variable {κ ω : Type}

def write (m : Machine κ ω) (offset : Nat) (word : Bytes) : Action HarnessError ω Unit :=
  (m.write offset (memoryOrder word)).mapError .ofFault

def read (m : Machine κ ω) (offset len : Nat) : Action HarnessError ω Bytes := do
  return memoryOrder (← (m.read offset len).mapError .ofFault)

end OpcodeConformance.Word
