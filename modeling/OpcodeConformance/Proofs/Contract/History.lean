import OpcodeConformance.Proofs.Contract.Runs

namespace OpcodeConformance.Contract

/-- Contracts with one code, at one address of one state. Nothing that is done with a contract
changes these. -/
structure Kindred (c d : Contract) : Prop where
  code : c.code = d.code
  state : c.state = d.state
  account : c.account = d.account

variable {c d e : Contract}

theorem Kindred.refl (c : Contract) : c.Kindred c := ⟨rfl, rfl, rfl⟩

theorem Kindred.trans (h : c.Kindred d) (h' : d.Kindred e) : c.Kindred e :=
  ⟨h.code.trans h'.code, h.state.trans h'.state, h.account.trans h'.account⟩

theorem kindred_use (u : Use) (c : Contract) : (c.use u).Kindred c := by
  cases u with
  | call name params =>
    simp only [use, call]
    split <;> exact ⟨rfl, rfl, rfl⟩
  | write offset bs =>
    simp only [use, write]
    split <;> exact ⟨rfl, rfl, rfl⟩
  | settle =>
    simp only [use, settle]
    split
    · exact .refl c
    · rename_i effects hqueue
      obtain ⟨gas, response, h⟩ := applyAll_frame effects { c with queue := some [] }
      rw [h]
      exact ⟨rfl, rfl, rfl⟩

theorem kindred_receive (m : Message) (c : Contract) : (c.receive m).2.Kindred c := by
  cases h : (c.receive m).1 with
  | ok v =>
    obtain ⟨i, -, -, hstate⟩ := receive_ok h
    rw [hstate]
    exact ⟨rfl, rfl, rfl⟩
  | error f =>
    obtain ⟨-, hstate⟩ | ⟨i, -, -, -, hstate⟩ := receive_error h <;> rw [hstate]
    · exact .refl c
    · exact ⟨rfl, rfl, rfl⟩

theorem kindred_move (x : Move) (c : Contract) : (c.move x).Kindred c := by
  cases x with
  | receive m => exact kindred_receive m c
  | use u => exact kindred_use u c

theorem kindred_moved (xs : List Move) (c : Contract) : (c.moved xs).Kindred c := by
  induction xs generalizing c with
  | nil => exact .refl c
  | cons x xs ih => exact (ih (c.move x)).trans (kindred_move x c)

/-- The instance for a message is made of nothing else. -/
theorem Kindred.instantiate (h : c.Kindred d) (m : Message) :
    c.instantiate m = d.instantiate m := by
  simp only [Contract.instantiate, h.code, h.state, h.account]

theorem Kindred.receive (h : c.Kindred d) (m : Message) :
    (c.receive m).1 = (d.receive m).1 ∧
      ((d.receive m).1 = .ok () → (c.receive m).2 = (d.receive m).2) := by
  have hi := h.instantiate m
  unfold Contract.receive
  rw [hi]
  cases d.instantiate m with
  | error f => exact ⟨rfl, fun hok => nomatch hok⟩
  | ok i =>
    dsimp only
    -- what the entry function does depends on the instance only
    split
    · exact ⟨rfl, fun _ => by rw [h.code, h.state, h.account]⟩
    · exact ⟨rfl, fun hok => nomatch hok⟩

/-- Whatever was done with a contract before, a message is answered as by a new contract. If it is
accepted, the contract is from then on in all its parts the one that has done nothing before. -/
theorem accepted_message_forgets_history (code : Binary) (t : StateTree) (account : Address)
    (xs : List Move) (m : Message) :
    let fresh := Contract.new code t account
    let c := fresh.moved xs
    (c.receive m).1 = (fresh.receive m).1 ∧
      ((c.receive m).1 = .ok () → (c.receive m).2 = (fresh.receive m).2 ∧
        ∀ ys : List Move,
          fresh.moved (xs ++ .receive m :: ys) = fresh.moved (.receive m :: ys)) := by
  intro fresh c
  obtain ⟨hanswer, hstate⟩ := (kindred_moved xs fresh).receive m
  refine ⟨hanswer, fun hok => ?_⟩
  have hsame : (c.receive m).2 = (fresh.receive m).2 := hstate (hanswer ▸ hok)
  refine ⟨hsame, fun ys => ?_⟩
  calc fresh.moved (xs ++ .receive m :: ys)
      = (c.receive m).2.moved ys := by
        rw [moved, List.foldl_append]
        rfl
    _ = fresh.moved (.receive m :: ys) := by
        rw [hsame]
        rfl

/-- A meter with a charge that waits, with a trapped call and a refused message behind it, and
with a closed instance that was written to, charges for the next message as a new one does. -/
theorem accepted_message_forgets_history_meter :
    let before : List Move := [.receive ⟨.zero, [], 100⟩, .use (.call "charge" [5]),
      .use (.call "waste" [7]), .receive ⟨.zero, [1], 50⟩, .use (.write 0 [1])]
    let c := meterContract.moved (before ++ [.receive ⟨.zero, [], 9⟩, .use .settle])
    (meterContract.moved before).queue = some [.useGas 3] ∧ c.gasLeft = 6 ∧
      c.read 0 1 = .ok [0] := by
  intro before c
  obtain ⟨hanswer, hforgets⟩ := accepted_message_forgets_history (.compiled meter) meterState .zero
    before ⟨.zero, [], 9⟩
  have haccepted : (meterContract.receive ⟨.zero, [], 9⟩).1 = .ok () := by decide +kernel
  obtain ⟨-, hlater⟩ := hforgets (hanswer.trans haccepted)
  have hnew : c = meterContract.moved [.receive ⟨.zero, [], 9⟩, .use .settle] :=
    hlater [.use .settle]
  refine ⟨by decide +kernel, ?_, ?_⟩
  · rw [hnew]
    decide +kernel
  · rw [hnew]
    decide +kernel

end OpcodeConformance.Contract
