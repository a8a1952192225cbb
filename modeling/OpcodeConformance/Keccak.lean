import OpcodeConformance.Bytes

namespace OpcodeConformance

namespace Keccak

/-- The state: lane `(x, y)` stands at `x + 5 * y`. -/
abbrev Lanes := Vector UInt64 25

def Lanes.at (a : Lanes) (x y : Nat) : UInt64 :=
  a.get ⟨(x % 5 + 5 * (y % 5)) % 25, Nat.mod_lt _ (by omega)⟩

def rotateLeft (w n : UInt64) : UInt64 := if n = 0 then w else (w <<< n) ||| (w >>> (64 - n))

def tabulate (f : Nat → Nat → UInt64) : Lanes := Vector.ofFn fun i => f (i.val % 5) (i.val / 5)

def theta (a : Lanes) : Lanes :=
  let column := Vector.ofFn fun x : Fin 5 =>
    a.at x 0 ^^^ a.at x 1 ^^^ a.at x 2 ^^^ a.at x 3 ^^^ a.at x 4
  let parity := fun x : Nat => column.get ⟨x % 5, Nat.mod_lt _ (by omega)⟩
  let mix := Vector.ofFn fun x : Fin 5 => parity (x.val + 4) ^^^ rotateLeft (parity (x.val + 1)) 1
  tabulate fun x y => a.at x y ^^^ mix.get ⟨x % 5, Nat.mod_lt _ (by omega)⟩

def offsets : Lanes :=
  #v[0, 1, 62, 28, 27, 36, 44, 6, 55, 20, 3, 10, 43, 25, 39, 41, 45, 15, 21, 8, 18, 2, 61, 56, 14]

/-- Rotates the lanes and moves lane `(x, y)` to `(y, 2 * x + 3 * y)`. -/
def rhoPi (a : Lanes) : Lanes :=
  tabulate fun x y => rotateLeft (a.at (x + 3 * y) x) (offsets.at (x + 3 * y) x)

def chi (a : Lanes) : Lanes :=
  tabulate fun x y => a.at x y ^^^ ((a.at (x + 1) y ^^^ 0xffffffffffffffff) &&& a.at (x + 2) y)

def roundConstants : List UInt64 :=
  [0x0000000000000001, 0x0000000000008082, 0x800000000000808a, 0x8000000080008000,
   0x000000000000808b, 0x0000000080000001, 0x8000000080008081, 0x8000000000008009,
   0x000000000000008a, 0x0000000000000088, 0x0000000080008009, 0x000000008000000a,
   0x000000008000808b, 0x800000000000008b, 0x8000000000008089, 0x8000000000008003,
   0x8000000000008002, 0x8000000000000080, 0x000000000000800a, 0x800000008000000a,
   0x8000000080008081, 0x8000000000008080, 0x0000000080000001, 0x8000000080008008]

def round (a : Lanes) (constant : UInt64) : Lanes :=
  let b := chi (rhoPi (theta a))
  b.set 0 (b.at 0 0 ^^^ constant)

def permute (a : Lanes) : Lanes := roundConstants.foldl round a

def rate : Nat := 136

def pad (message : Bytes) : Bytes :=
  let missing := rate - message.length % rate
  if missing = 1 then message ++ [0x81]
  else message ++ 0x01 :: (List.replicate (missing - 2) 0x00 ++ [0x80])

def blockLane (block : Bytes) (i : Nat) : UInt64 :=
  UInt64.ofNat (Bytes.littleValue ((block.drop (8 * i)).take 8))

def absorb (a : Lanes) (block : Bytes) : Lanes :=
  permute (tabulate fun x y => a.at x y ^^^ blockLane block (x + 5 * y))

def blocks (padded : Bytes) : List Bytes :=
  (List.range (padded.length / rate)).map fun i => (padded.drop (rate * i)).take rate

def squeeze (a : Lanes) : Bytes :=
  (List.range 4).flatMap fun x => Bytes.little 8 (a.at x 0).toNat

end Keccak

def keccak256 (message : Bytes) : Bytes :=
  Keccak.squeeze ((Keccak.blocks (Keccak.pad message)).foldl Keccak.absorb (Vector.replicate 25 0))

@[simp] theorem length_keccak256 (message : Bytes) : (keccak256 message).length = 32 := by
  simp [keccak256, Keccak.squeeze, List.range_succ]

end OpcodeConformance
