import OpcodeConformance.Proofs.Opcode.Underflow
import OpcodeConformance.Proofs.Suite.Addition

namespace OpcodeConformance

open Wasm Opcode

namespace Dispatch

variable {c : Contract} {p : Program HostState} {e : Environment} {sp : UInt32}
  {waiting : List Effect}

/-- Writes change the memory of a session only, and not its size, whether they fit or not. -/
theorem after_writeRequests (hp : p.shown? = some 0) (ws : List (Nat × Bytes)) (m : Memory) :
    ∃ m', m'.size = m.size ∧ Machine.contract.after (Machine.writeRequests ws)
      (session c p e m sp waiting) = session c p e m' sp waiting := by
  induction ws generalizing m with
  | nil => exact ⟨m, rfl, rfl⟩
  | cons w ws ih =>
    have hwrite : ∃ m', m'.size = m.size ∧
        ((session c p e m sp waiting).write w.1 w.2).2 = session c p e m' sp waiting := by
      rcases Nat.lt_or_ge m.size (w.1 + w.2.length) with hlt | hle
      · exact ⟨m, rfl, by rw [write_session_of_lt hp hlt]⟩
      · exact ⟨m.overlay w.1 w.2, Memory.size_overlay m w.1 w.2,
          by rw [Opcode.write_session hp hle]⟩
    obtain ⟨m₁, hsize₁, hwrite⟩ := hwrite
    obtain ⟨m₂, hsize₂, hwrites⟩ := ih m₁
    refine ⟨m₂, hsize₂.trans hsize₁, ?_⟩
    rw [← hwrites, ← hwrite]
    rfl

variable {op : String} {imports : List (String × FunctionType)} {functions : List Function}
  {hosts : List (HostFunction HostState)} {f : Function} {context : Context} {i : PreparedInput}

theorem after_opening (h : Shipped op imports functions hosts f)
    (henvironment : Contract.environment context.state context.account context.message = .ok e)
    (hfits : i.stack.length * Word.size ≤ memorySize) (s : Contract) :
    let code := Binary.compiled (module op imports functions)
    Machine.contract.after (opening code context i) s =
      session (started code context) (program op imports functions hosts) e (.zeros memorySize)
        (UInt32.ofInt (((i.stack.length : Int) - 1) * Word.size)) [] := by
  intro code
  obtain ⟨hpointer, hrange⟩ := stackPointer_mem_range hfits
  have hreceive : (Contract.new code context.state context.account).receive context.message = _ :=
    receive_session h.linked rfl h.isValid h.ne_entry henvironment
  have hopening : Machine.contract.after (opening code context i) s =
      (((Contract.new code context.state context.account).receive context.message).2.call
        setterName [stackPointer i.stack.length]).2 := rfl
  rw [hopening, hreceive, call_setter h.linked hrange, hpointer]
  rfl

theorem answer_opcode (h : Shipped op imports functions hosts f)
    (henvironment : Contract.environment context.state context.account context.message = .ok e)
    (hfits : i.stack.length * Word.size ≤ memorySize) (base : Nat) (params : List Int64)
    (s : Contract) :
    ∃ c m, m.size = memorySize ∧ Machine.contract.answer
      (preparation base (.compiled (module op imports functions)) context i) (.call op params) s =
      ((session c (program op imports functions hosts) e m
        (UInt32.ofInt (((i.stack.length : Int) - 1) * Word.size)) []).call op params).1 := by
  rw [Machine.answer, preparation_eq, Machine.after_append, after_opening h henvironment hfits s]
  obtain ⟨m, hsize, hm⟩ := after_writeRequests shown?_program (writes base i) (.zeros memorySize)
  rw [hm]
  exact ⟨_, m, hsize, rfl⟩

end Dispatch

namespace Opcode

/-- How many words an opcode takes from the stack. -/
def operands : String → Nat
  | "ADD" => 2
  | "MSTORE" => 2
  | "RETURN" => 2
  | "POP" => 1
  | _ => 0

end Opcode

namespace Suite.Runner

variable {settings : Settings} {c : Case} {op : String} {imports : List (String × FunctionType)}
  {functions : List Function} {hosts : List (HostFunction HostState)} {f : Function}

/-- A case fails, whatever it expects, if its opcode is never answered with the address of a
slot. -/
theorem exists_failure_of_call (hop : c.op = op) (h : Shipped op imports functions hosts f)
    (hfits : c.input.stack.length * Word.size ≤ memorySize)
    (hcall : ∀ d e m value, m.size = memorySize →
      ((session d (program op imports functions hosts) e m
        (UInt32.ofInt (((c.input.stack.length : Int) - 1) * Word.size)) []).call op []).1 =
          .ok value →
      Verdict.stackPointerProblem? value ≠ none) (file : String) (s : Contract) :
    ∃ x ∈ ((shipped settings).runCase file c s).1,
      x.field ∈ [Field.setup, .execution, .stackPointer] := by
  subst hop
  by_cases hu : (shipped settings).Unprepared c
  case pos =>
    obtain ⟨e, he⟩ := unprepared_iff.mp hu
    rw [runCase_of_error he]
    exact ⟨_, .head _, .head _⟩
  obtain ⟨⟨code, context, i⟩, hprepare⟩ := exists_prepare_iff.mpr hu
  by_cases hi : (shipped settings).Interrupted c s
  case pos =>
    obtain ⟨_, _, _, k, f, hprepared, hf⟩ := hi
    rw [runCase_of_firstFailure file hprepared hf]
    exact ⟨_, .head _, .tail _ (.head _)⟩
  obtain ⟨o, ho, hrun⟩ := runCase_of_not_interrupted file hprepare hi
  obtain ⟨hcode, hcontext, hinput⟩ := prepare_eq_ok_iff.mp hprepare
  obtain rfl : code = .compiled (module c.op imports functions) :=
    Except.ok.inj (hcode.symm.trans h.code)
  obtain ⟨context', hcontext', -, henvironment⟩ := Context.build_eq_ok settings.gas c.environment
  obtain rfl : context' = context := Except.ok.inj (hcontext'.symm.trans hcontext)
  have hlength := (PreparedInput.ofInput_eq_ok_iff.mp hinput).1.length_eq
  rw [hlength] at hfits hcall
  obtain ⟨d, m, hsize, hm⟩ :=
    Dispatch.answer_opcode h henvironment hfits settings.memoryBase c.params s
  -- all requests have been answered, the call of the opcode among them
  have hanswer := hm.symm.trans ho.stackPointer
  rw [h.eq_nil_of_call_eq_ok hanswer] at hanswer
  obtain ⟨x, hx, hfield⟩ :=
    Verdict.exists_stackPointer_failure (hcall _ _ m _ hsize hanswer)
  rw [hrun]
  exact ⟨x, hx, hfield ▸ .tail _ (.tail _ (.head _))⟩

theorem outside_of_lt_two {len : Nat} (h : len < 2) :
    memorySize ≤ (UInt32.ofInt (((len : Int) - 1) * Word.size) - 32).toNat := by
  obtain rfl | rfl : len = 0 ∨ len = 1 := by omega
  · decide
  · decide

theorem signed?_below_empty :
    (Value.i32 (UInt32.ofInt ((((0 : Nat) : Int) - 1) * Word.size) - 32)).signed? =
      some (-64) := by
  decide

/-- A case fails if its opcode traps without a second word from the top. -/
theorem exists_failure_of_outside {fault : Fault} (hop : c.op = op)
    (h : Shipped op imports functions hosts f) (hlength : c.input.stack.length < 2)
    (hcall : ∀ d e m sp, m.size ≤ (sp - 32).toNat →
      ((session d (program op imports functions hosts) e m sp []).call op []).1 = .error fault)
    (file : String) (s : Contract) : ∃ x ∈ ((shipped settings).runCase file c s).1,
      x.field ∈ [Field.setup, .execution, .stackPointer] := by
  have hfits : c.input.stack.length * 32 ≤ 131072 := by omega
  refine exists_failure_of_call hop h hfits (fun d e m value hsize hanswer => ?_) file s
  have houtside := outside_of_lt_two hlength
  rw [← hsize] at houtside
  cases (hcall d e m _ houtside).symm.trans hanswer

/-- A case that removes a word from an empty stack fails, because its pointer is negative. -/
theorem exists_failure_of_pop (hop : c.op = "POP") (hlength : c.input.stack.length = 0)
    (file : String) (s : Contract) : ∃ x ∈ ((shipped settings).runCase file c s).1,
      x.field ∈ [Field.setup, .execution, .stackPointer] := by
  have hfits : c.input.stack.length * Word.size ≤ memorySize := by
    rw [hlength]
    decide
  refine exists_failure_of_call hop shipped_pop hfits (fun d e m value _ hanswer => ?_) file s
  rw [call_pop, hlength, signed?_below_empty] at hanswer
  rw [← Except.ok.inj hanswer]
  exact Verdict.stackPointerProblem?_of_neg (by decide)

/-- No case passes whose opcode takes more words from the stack than the input has, whatever else
the case says. One failure at least is about no expectation: the case cannot be prepared, or the
machine refuses a request, or the opcode takes the stack pointer below the bottom of the stack. -/
theorem runCase_underflow (h : c.input.stack.length < operands c.op) (file : String)
    (s : Contract) : ∃ x ∈ ((shipped settings).runCase file c s).1,
      x.field ∈ [Field.setup, .execution, .stackPointer] := by
  unfold operands at h
  split at h
  case h_1 hop =>
    exact exists_failure_of_outside hop shipped_add h (fun _ _ _ _ => call_add_outside) file s
  case h_2 hop =>
    exact exists_failure_of_outside hop shipped_mstore h (fun _ _ _ _ => call_mstore_outside) file s
  case h_3 hop =>
    exact exists_failure_of_outside hop shipped_return h (fun _ _ _ _ => call_return_outside) file s
  case h_4 hop => exact exists_failure_of_pop hop (Nat.lt_one_iff.mp h) file s
  case h_5 => exact absurd h (Nat.not_lt_zero _)

def lacking : Case where
  op := "RETURN"
  description := ""
  environment := CaseEnvironment.record.initial
  input := ⟨["0x00"], .empty⟩
  params := []
  output := ⟨[], .empty, none, none⟩

theorem runCase_underflow_lacking :
    lacking.input.stack.length < operands lacking.op ∧
      ∃ x ∈ ((shipped .default).runCase "return.json" lacking (.new (.bytes []) .empty .zero)).1,
        x.field ∈ [Field.setup, .execution, .stackPointer] := by
  have h : lacking.input.stack.length < operands lacking.op := by decide
  exact ⟨h, runCase_underflow h "return.json" _⟩

end Suite.Runner

end OpcodeConformance
