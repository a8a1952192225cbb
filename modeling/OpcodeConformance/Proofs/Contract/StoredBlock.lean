import OpcodeConformance.Proofs.Contract.Environment
import OpcodeConformance.Proofs.Contract.History
import OpcodeConformance.Proofs.Contract.Refusal

namespace OpcodeConformance

open Json Wasm

namespace Wasm.Instance

theorem environment_use {i : Instance HostState} (h : i.IsLinked) (u : Use) :
    (i.use u).environment = i.environment := by
  cases u with
  | call name params => exact run_environment h name params
  | write offset bs => exact congrArg HostState.environment (write_host offset bs i)
  | settle => rfl

end Wasm.Instance

namespace Contract

variable {c : Contract} {t : StateTree} {account : Address} {m : Message} {b : Block}
  {i : Instance HostState}

theorem header_of_environment {e : Environment} (hb : block t = .ok b)
    (h : environment t account m = .ok e) : e.header = b.header := by
  rw [environment_of_block hb] at h
  obtain ⟨node, -, h⟩ := Results.bind_eq_ok h
  obtain ⟨known, -, h⟩ := Results.bind_eq_ok h
  cases h
  rfl

theorem exists_environment_of_instantiate (h : c.instantiate m = .ok i) :
    ∃ e, environment c.state c.account m = .ok e := by
  unfold instantiate at h
  obtain ⟨e, he, -⟩ := Results.bind_eq_ok h
  exact ⟨e, Results.mapError_eq_ok he⟩

theorem header_of_instantiate (hb : block c.state = .ok b) (h : c.instantiate m = .ok i) :
    i.environment.header = b.header := by
  obtain ⟨e, he⟩ := exists_environment_of_instantiate h
  rw [environment_instantiate he h]
  exact header_of_environment hb he

/-- The live instance, if there is one, sees a header. -/
def Sees (c : Contract) (h : BlockHeader) : Prop :=
  ∀ i, c.live = some i → i.environment.header = h

theorem sees_new (code : Binary) (t : StateTree) (account : Address) (h : BlockHeader) :
    (Contract.new code t account).Sees h := by
  intro i hi
  cases hi

theorem Sees.use {h : BlockHeader} (hc : c.Sees h) (hd : c.IsDrained) (u : Use) :
    (c.use u).Sees h := by
  intro j hj
  obtain ⟨i, hi, hju⟩ := exists_of_live_use hj
  have huse : (i.use u).environment.header = h :=
    (congrArg Environment.header (Instance.environment_use (hd i hi).1 u)).trans (hc i hi)
  obtain rfl | ⟨rfl, -⟩ := hju
  · exact huse
  · exact huse

theorem Sees.receive (hc : c.Sees b.header) (hb : block c.state = .ok b) (m : Message) :
    (c.receive m).2.Sees b.header := by
  intro j hj
  cases hr : (c.receive m).1 with
  | ok v =>
    obtain ⟨i, hi, -, -⟩ := receive_ok hr
    obtain ⟨k, hk, -⟩ := Results.bind_eq_ok hi
    obtain ⟨e, he⟩ := exists_environment_of_instantiate hk
    obtain ⟨-, i, hlive, hseen⟩ := environment_receive he hr
    cases hj.symm.trans hlive
    rw [hseen]
    exact header_of_environment hb he
  | error f =>
    -- the earlier instance stays, closed at most
    obtain ⟨-, hstate⟩ | ⟨i, -, -, -, hstate⟩ := receive_error hr
    · rw [hstate] at hj
      exact hc j hj
    · rw [hstate] at hj
      obtain ⟨k, hk, rfl⟩ := Option.map_eq_some_iff.mp hj
      exact hc k hk

/-- Whatever is done with a contract, its instances see the header of the block in its state. -/
theorem Sees.moved (hc : c.Sees b.header) (hd : c.IsDrained) (hb : block c.state = .ok b)
    (xs : List Move) : (c.moved xs).Sees b.header := by
  induction xs generalizing c with
  | nil => exact hc
  | cons x xs ih =>
    have hstate : block (c.move x).state = .ok b := by rwa [(kindred_move x c).state]
    cases x with
    | receive m => exact ih (hc.receive hb m) (hd.receive m) hstate
    | use u => exact ih (hc.use hd u) (hd.use u) hstate

end Contract

/-- A block is read back from its document, which every state can hold. If a state holds it, the
block is no reason to refuse a message: what a contract sees of the state is the header of the block,
and that is what all its instances see, from their start on and whatever is done with the
contract. -/
theorem Block.stored_block_is_seen (b : Block) :
    let stored := StateTree.ofValue (Print.document b.print)
    stored.decodeValue Block.record.decoder = .ok (some b) ∧
    (∀ t : StateTree, ∃ u, t.set [blockPath] stored = .ok u ∧ u.get [blockPath] = .ok stored) ∧
    ∀ t node : StateTree, t.get [blockPath] = .ok node → node.value = stored.value →
      (∀ account m, Contract.environment t account m = (do
        let _ ← t.get (accountPath account)
        return ⟨account, m.caller, m.data, b.header, ← Contract.history t⟩)) ∧
      ∀ code account xs,
        let c := (Contract.new code t account).moved xs
        (∀ m i, c.instantiate m = .ok i → i.environment.header = b.header) ∧
          ∀ i, c.live = some i → i.environment.header = b.header := by
  intro stored
  refine ⟨StateTree.decodeValue_of_reads rfl b.reads_print, fun t => ?_, fun t node ht hnode => ?_⟩
  · refine ⟨_, StateTree.set_cons t stored blockPath [], ?_⟩
    rw [StateTree.get_eq_ok_iff]
    exact Node.get?_put blockPath [] stored.root t.root
  · have hb : Contract.block t = .ok b := Contract.block_of_document ht hnode
    refine ⟨Contract.environment_of_block hb, fun code account xs => ⟨fun m i h => ?_, ?_⟩⟩
    · refine Contract.header_of_instantiate (c := (Contract.new code t account).moved xs) ?_ h
      rwa [(Contract.kindred_moved xs (Contract.new code t account)).state]
    · exact (Contract.sees_new code t account b.header).moved
        (Contract.isDrained_new code t account) hb xs

/-- The meter runs with the header of a block of great numbers. -/
theorem Block.stored_block_is_seen_meter :
    let b : Block := ⟨⟨.zero, 18446744073709551615, 9223372036854775809, 9007199254740993⟩⟩
    ∃ t, meterState.set [blockPath] (.ofValue (Print.document b.print)) = .ok t ∧
      ∃ i, ((Contract.new (.compiled meter) t .zero).moved [.receive ⟨.zero, [], 100⟩]).live =
        some i ∧ i.environment.header = b.header := by
  intro b
  obtain ⟨-, hset, hseen⟩ := stored_block_is_seen b
  obtain ⟨t, ht, hnode⟩ := hset meterState
  refine ⟨t, ht, ?_⟩
  have hlive : (((Contract.new (.compiled meter) t .zero).moved
      [.receive ⟨.zero, [], 100⟩]).live).isSome = true := by
    cases ht
    decide +kernel
  obtain ⟨i, hi⟩ := Option.isSome_iff_exists.mp hlive
  obtain ⟨-, hruns⟩ := hseen t _ hnode rfl
  exact ⟨i, hi, (hruns (.compiled meter) .zero [.receive ⟨.zero, [], 100⟩]).2 i hi⟩

example : String.ofList (Block.print ⟨⟨.zero, 18446744073709551615, 0, 1⟩⟩) =
    "\x7b\"header\":\x7b\"coinbase\":\"0x0000000000000000000000000000000000000000\"," ++
      "\"number\":18446744073709551615,\"timestamp\":0,\"gasLimit\":1\x7d\x7d" := by
  decide +kernel

end OpcodeConformance
