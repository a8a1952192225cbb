import OpcodeConformance.Proofs.Opcode.Session
import OpcodeConformance.Proofs.Priming

namespace OpcodeConformance

open Wasm Opcode

namespace Memory

def placed (m : Memory) (ws : List (Nat × Bytes)) : Memory :=
  ws.foldl (fun m w => m.overlay w.1 w.2) m

@[simp] theorem placed_nil (m : Memory) : m.placed [] = m := rfl

@[simp] theorem placed_cons (m : Memory) (w : Nat × Bytes) (ws : List (Nat × Bytes)) :
    m.placed (w :: ws) = (m.overlay w.1 w.2).placed ws := rfl

@[simp] theorem size_placed (m : Memory) (ws : List (Nat × Bytes)) :
    (m.placed ws).size = m.size := by
  induction ws generalizing m with
  | nil => rfl
  | cons w ws ih => rw [placed_cons, ih, size_overlay]

theorem flat_placed (m : Memory) (ws : List (Nat × Bytes)) :
    (m.placed ws).flat = m.flat.placed ws := by
  induction ws generalizing m with
  | nil => rfl
  | cons w ws ih => rw [placed_cons, ih, flat_overlay, FlatMemory.placed_cons]

end Memory

namespace Dispatch

variable {c : Contract} {p : Program HostState} {e : Environment} {m : Memory} {sp : UInt32}
  {waiting : List Effect}

theorem write_session (hp : p.shown? = some 0) {offset : Nat} {w : Bytes}
    (h : offset + w.length ≤ m.size) :
    Word.write Machine.contract offset w (session c p e m sp waiting) =
      (.ok (), session c p e (m.overlay offset (Word.memoryOrder w)) sp waiting) :=
  Action.mapError_of_ok (Opcode.write_session hp (by rwa [Word.length_memoryOrder]))

theorem writeStack_session (hp : p.shown? = some 0) {k : Nat} {ws : List Bytes}
    (hws : ∀ w ∈ ws, w.length = Word.size) (hsize : (k + ws.length) * Word.size ≤ m.size) :
    writeStack Machine.contract k ws (session c p e m sp waiting) =
      (.ok (), session c p e (m.placed (stackWrites k ws)) sp waiting) := by
  induction ws generalizing m k with
  | nil => rfl
  | cons w ws ih =>
    rw [List.length_cons] at hsize
    have hfits : k * Word.size + w.length ≤ m.size := by
      rw [hws w (.head _)]
      exact Nat.le_trans (Word.slot_end_le (by omega)) hsize
    rw [writeStack, Action.bind_of_ok (write_session hp hfits), stackWrites_cons,
      Memory.placed_cons]
    apply ih fun v hv => hws v (.tail _ hv)
    rwa [Memory.size_overlay, Nat.add_right_comm, Nat.add_assoc]

theorem writeMemory_session (hp : p.shown? = some 0) {base : Nat} {ws : List (Nat × Bytes)}
    (hws : ∀ w ∈ ws, w.1 + base + w.2.length ≤ m.size) :
    writeMemory Machine.contract base ws (session c p e m sp waiting) =
      (.ok (), session c p e (m.placed (memoryWrites base ws)) sp waiting) := by
  induction ws generalizing m with
  | nil => rfl
  | cons w ws ih =>
    obtain ⟨offset, w⟩ := w
    rw [writeMemory, Action.bind_of_ok (write_session hp (hws (offset, w) (.head _))),
      memoryWrites_cons, Memory.placed_cons]
    exact ih fun v hv => by rw [Memory.size_overlay]; exact hws v (.tail _ hv)

/-- The memory behind the writes of a run. -/
def primed (base : Nat) (i : PreparedInput) : Memory :=
  ((Memory.zeros memorySize).placed (stackWrites 0 i.stack)).placed (memoryWrites base i.memory)

@[simp] theorem size_primed (base : Nat) (i : PreparedInput) :
    (primed base i).size = memorySize := by
  simp [primed, Memory.zeros]

theorem flat_primed (base : Nat) (i : PreparedInput) :
    (primed base i).flat = (Memory.zeros memorySize).flat.placed (writes base i) := by
  rw [primed, Memory.flat_placed, Memory.flat_placed, writes, FlatMemory.placed_append]

/-- A word of the stack is in its slot if the memory begins behind the stack. -/
theorem slice_primed {base k : Nat} {i : PreparedInput} {w : Bytes}
    (hstack : ∀ v ∈ i.stack, v.length = Word.size) (hbase : i.stack.length * Word.size ≤ base)
    (hw : i.stack[k]? = some w) :
    (primed base i).slice (k * Word.size) Word.size = Word.memoryOrder w := by
  have hlength : (Word.memoryOrder w).length = Word.size := by
    rw [Word.length_memoryOrder, hstack w (List.mem_of_getElem? hw)]
  obtain ⟨earlier, later, hsplit⟩ := List.append_of_mem (mem_stackWrites hw)
  -- the words behind it are written above its slot, and so is the memory of a case
  have hlater : ∀ v ∈ later ++ memoryWrites base i.memory,
      k * Word.size + (Word.memoryOrder w).length ≤ v.1 ∨ v.1 + v.2.length ≤ k * Word.size := by
    intro v hv
    left
    rcases List.mem_append.mp hv with hv | hv
    · have hpairwise := pairwise_stackWrites (k := 0) hstack
      rw [hsplit] at hpairwise
      exact (List.pairwise_cons.mp (List.pairwise_append.mp hpairwise).2.1).1 v hv
    · obtain ⟨x, -, rfl⟩ := List.mem_map.mp hv
      have hslot := Word.slot_end_le (List.getElem?_eq_some_iff.mp hw).1
      rw [hlength]
      exact Nat.le_trans (Nat.le_trans hslot hbase) (Nat.le_add_left _ _)
  have hslice : ((Memory.zeros memorySize).flat.placed (earlier ++
      (k * Word.size, Word.memoryOrder w) :: (later ++ memoryWrites base i.memory))).slice
      (k * Word.size) (Word.memoryOrder w).length = Word.memoryOrder w :=
    FlatMemory.slice_placed (w := (k * Word.size, Word.memoryOrder w)) hlater
  rwa [← List.cons_append, ← List.append_assoc, ← hsplit, ← writes, ← flat_primed, hlength]
    at hslice

theorem slots_primed {base : Nat} {i : PreparedInput}
    (hstack : ∀ v ∈ i.stack, v.length = Word.size) (hbase : i.stack.length * Word.size ≤ base) :
    (primed base i).slots 0 i.stack.length = i.stack.map Bytes.bigValue := by
  apply List.ext_getElem
  · simp [Memory.slots]
  · intro k hk hk'
    have hlt : k < i.stack.length := by simpa using hk'
    simp only [Memory.slots, List.getElem_map, List.getElem_range', Nat.one_mul, Nat.zero_add]
    rw [Memory.slot, slice_primed hstack hbase (List.getElem?_eq_getElem hlt)]
    rfl

theorem stackPointer_mem_range {len : Nat} (h : len * Word.size ≤ memorySize) :
    (stackPointer len).toInt = ((len : Int) - 1) * Word.size ∧
      Int32.minValue.toInt ≤ (stackPointer len).toInt ∧
      (stackPointer len).toInt ≤ Int32.maxValue.toInt := by
  have hle : len * 32 ≤ 131072 := h
  have htoInt : (stackPointer len).toInt = ((len : Int) - 1) * Word.size :=
    toInt_stackPointer (by omega)
  refine ⟨htoInt, ?_⟩
  rw [htoInt]
  change -2 ^ 31 ≤ ((len : Int) - 1) * 32 ∧ ((len : Int) - 1) * 32 ≤ 2 ^ 31 - 1
  omega

/-- The contract of a run behind its message: the gas is there, and nothing is staged. -/
def started (code : Binary) (context : Context) : Contract :=
  { Contract.new code context.state context.account with gasLeft := context.message.gas }

/-- A run that has begun calls the opcode on the memory with all words. -/
theorem execute_begun {code : Binary} {context : Context} {i : PreparedInput} {base : Nat}
    {op : String} {params : List Int64} {value : Option Int64} {s t u : Contract}
    (hp : p.shown? = some 0)
    (hreceive : (Contract.new code context.state context.account).receive context.message =
      (.ok (), session c p e (.zeros memorySize) (-32) []))
    (hset : (session c p e (.zeros memorySize) (-32) []).call setterName
      [stackPointer i.stack.length] = (.ok none, session c p e (.zeros memorySize) sp []))
    (hstack : ∀ w ∈ i.stack, w.length = Word.size) (hfits : i.stack.length * Word.size ≤ memorySize)
    (hmemory : ∀ w ∈ i.memory, w.1 + base + w.2.length ≤ memorySize)
    (hcall : (session c p e (primed base i) sp []).call op params = (.ok value, t))
    (hsettle : t.settle = (.ok (), u)) :
    execute Machine.contract base code context i op params s = (.ok value, u) := by
  have hzeros : (Memory.zeros memorySize).size = memorySize := rfl
  have hcreate : (Machine.contract.create code context.state context.account).mapError
      HarnessError.ofFault s = (.ok (), .new code context.state context.account) :=
    Action.mapError_of_ok rfl
  have hreceive : (Machine.contract.receive context.message).mapError HarnessError.ofFault
      (.new code context.state context.account) =
      (.ok (), session c p e (.zeros memorySize) (-32) []) := Action.mapError_of_ok hreceive
  have hattach : Machine.contract.attach.mapError HarnessError.ofFault
      (session c p e (.zeros memorySize) (-32) []) =
      (.ok (), session c p e (.zeros memorySize) (-32) []) := Action.mapError_of_ok rfl
  have hset : (Machine.contract.call setterName [stackPointer i.stack.length]).mapError
      HarnessError.ofFault (session c p e (.zeros memorySize) (-32) []) =
      (.ok none, session c p e (.zeros memorySize) sp []) := Action.mapError_of_ok hset
  have hcall : (Machine.contract.call op params).mapError HarnessError.ofFault
      (session c p e (primed base i) sp []) = (.ok value, t) := Action.mapError_of_ok hcall
  have hsettle : Machine.contract.settle.mapError HarnessError.ofFault t = (.ok (), u) :=
    Action.mapError_of_ok hsettle
  have hwriteStack : writeStack Machine.contract 0 i.stack
      (session c p e (.zeros memorySize) sp []) =
      (.ok (), session c p e ((Memory.zeros memorySize).placed (stackWrites 0 i.stack)) sp []) :=
    writeStack_session hp hstack (by rwa [Nat.zero_add, hzeros])
  have hwriteMemory : writeMemory Machine.contract base i.memory
      (session c p e ((Memory.zeros memorySize).placed (stackWrites 0 i.stack)) sp []) =
      (.ok (), session c p e (primed base i) sp []) :=
    writeMemory_session hp (by rwa [Memory.size_placed, hzeros])
  unfold execute
  rw [Action.bind_of_ok hcreate, Action.bind_of_ok hreceive, Action.bind_of_ok hattach,
    Action.bind_of_ok hset, Action.bind_of_ok hwriteStack, Action.bind_of_ok hwriteMemory,
    Action.bind_of_ok hcall, Action.bind_of_ok hsettle]
  rfl

theorem execute_session {op : String} {imports : List (String × FunctionType)}
    {functions : List Function} {hosts : List (HostFunction HostState)} {context : Context}
    {i : PreparedInput} {base : Nat} {params : List Int64} {value : Option Int64} {s t u : Contract}
    (h : Linked imports hosts) (hvalid : (module op imports functions).isValid = true)
    (hop : op ≠ Contract.entryName)
    (henvironment : Contract.environment context.state context.account context.message = .ok e)
    (hstack : ∀ w ∈ i.stack, w.length = Word.size) (hfits : i.stack.length * Word.size ≤ memorySize)
    (hmemory : ∀ w ∈ i.memory, w.1 + base + w.2.length ≤ memorySize)
    (hsp : UInt32.ofInt (((i.stack.length : Int) - 1) * Word.size) = sp)
    (hcall : (session (started (.compiled (module op imports functions)) context)
        (program op imports functions hosts) e (primed base i) sp []).call op params =
      (.ok value, t))
    (hsettle : t.settle = (.ok (), u)) :
    execute Machine.contract base (.compiled (module op imports functions)) context i op params s =
      (.ok value, u) := by
  obtain ⟨hpointer, hrange⟩ := stackPointer_mem_range hfits
  rw [← hsp, ← hpointer] at hcall
  exact execute_begun shown?_program (receive_session h rfl hvalid hop henvironment)
    (call_setter h hrange) hstack hfits hmemory hcall hsettle

end Dispatch

end OpcodeConformance
