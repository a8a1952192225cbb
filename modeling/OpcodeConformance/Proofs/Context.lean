import OpcodeConformance.Context
import OpcodeConformance.Contract
import OpcodeConformance.Proofs.Json
import OpcodeConformance.Proofs.StateTree

namespace OpcodeConformance

open Json

namespace StateTree

theorem decodeValue_of_reads {α : Type} {t : StateTree} {d : Decoder α} {cs : List Char} {x : α}
    (ht : t.value = some (Print.document cs)) (h : Reads d cs x) :
    t.decodeValue d = .ok (some x) := by
  simp only [decodeValue, ht, h.decode]

end StateTree

def BlockHeader.members (h : BlockHeader) : List (Record.Member BlockHeader) := [
  .ofField "coinbase" Address.decoder (fun x h => { h with coinbase := x })
    h.coinbase.print h.coinbase,
  .ofField "number" uint64 (fun x h => { h with number := x })
    (Print.number h.number.toNat) h.number,
  .ofField "timestamp" uint64 (fun x h => { h with timestamp := x })
    (Print.number h.timestamp.toNat) h.timestamp,
  .ofField "gasLimit" uint64 (fun x h => { h with gasLimit := x })
    (Print.number h.gasLimit.toNat) h.gasLimit]

theorem BlockHeader.reads_print (h : BlockHeader) : Reads BlockHeader.record.decoder h.print h := by
  have hread : ∀ e ∈ h.members, e.IsReadBy BlockHeader.record := by
    simp only [members, List.mem_cons, List.not_mem_nil, or_false]
    rintro e (rfl | rfl | rfl | rfl)
    · exact Record.Member.isReadBy_ofField rfl h.coinbase.reads_print (by decide)
    · exact Record.Member.isReadBy_ofField rfl (reads_number h.number) (by decide)
    · exact Record.Member.isReadBy_ofField rfl (reads_number h.timestamp) (by decide)
    · exact Record.Member.isReadBy_ofField rfl (reads_number h.gasLimit) (by decide)
  have hdistinct : ["coinbase", "number", "timestamp", "gasLimit"].Nodup := by decide
  have hobject := Record.reads_object hread hdistinct (by simp [BlockHeader.record, field])
  exact hobject

def Block.member (b : Block) : Record.Member Block :=
  .ofField "header" BlockHeader.record.decoder (fun x _ => ⟨x⟩) b.header.print b.header

theorem Block.reads_print (b : Block) : Reads Block.record.decoder b.print b := by
  have hread : ∀ e ∈ [b.member], e.IsReadBy Block.record := by
    intro e he
    rw [List.mem_singleton.mp he]
    exact Record.Member.isReadBy_ofField rfl b.header.reads_print (by decide)
  have hobject := Record.reads_object hread (List.pairwise_singleton _ _)
    (by simp [Block.record, field])
  exact hobject

theorem ChainHistory.reads_print (c : ChainHistory) :
    Reads ChainHistory.record.decoder c.print c := by
  have hread : ∀ e ∈ ([] : List (Record.Member ChainHistory)), e.IsReadBy ChainHistory.record := by
    simp
  have hobject := Record.reads_object hread .nil (by simp [ChainHistory.record])
  exact hobject

namespace Contract

variable {t node : StateTree} {b : Block}

theorem block_of_document (hnode : t.get [blockPath] = .ok node)
    (hvalue : node.value = some (Print.document b.print)) : block t = .ok b := by
  simp only [block, hnode, StateTree.decodeValue_of_reads hvalue b.reads_print]
  rfl

theorem environment_of_block (hb : block t = .ok b) (account : Address) (m : Message) :
    environment t account m = (do
      let _ ← t.get (accountPath account)
      return ⟨account, m.caller, m.data, b.header, ← history t⟩) := by
  unfold environment
  rw [hb]
  rfl

end Contract

namespace Context

/-- A state made for a case holds the block, the history, and the account. -/
theorem makeState_eq_ok (b : Block) (account : Address) :
    ∃ t, makeState b account = .ok t ∧
      t.root.get? [blockPath] = some (.leaf (some (Print.document b.print))) ∧
      t.root.get? [historyPath] = some (.leaf (some (Print.document (ChainHistory.print ⟨⟩)))) ∧
      t.root.get? (accountPath account) = some .empty := by
  refine ⟨_, rfl, ?_, ?_, ?_⟩
  · simp [Node.get?, Node.put, Node.child?_insert, StateTree.ofValue, blockPath, historyPath,
      accountsPath]
  · simp [Node.get?, Node.put, Node.child?_insert, StateTree.ofValue, blockPath, historyPath,
      accountsPath]
  · simp [accountPath, Node.get?, Node.put, Node.child?_insert, StateTree.empty]

theorem environment_of_makeState {t : StateTree} {b : Block} {account : Address}
    (h : makeState b account = .ok t) (m : Message) :
    Contract.environment t account m =
      .ok ⟨account, m.caller, m.data, b.header, some ⟨⟩⟩ := by
  obtain ⟨t', ht', hblock, hhistory, haccount⟩ := makeState_eq_ok b account
  cases h.symm.trans ht'
  obtain ⟨u, hu, hblock⟩ := StateTree.get_of_root hblock
  obtain ⟨v, hv, hhistory⟩ := StateTree.get_of_root hhistory
  obtain ⟨w, hw, -⟩ := StateTree.get_of_root haccount
  have hb : Contract.block t = .ok b :=
    Contract.block_of_document hu (congrArg Node.value hblock)
  have hc : Contract.history t = .ok (some ⟨⟩) := by
    simp only [Contract.history, hv]
    exact StateTree.decodeValue_of_reads (congrArg Node.value hhistory) (ChainHistory.reads_print ⟨⟩)
  rw [Contract.environment_of_block hb, hw, hc]
  rfl

def messageOf (gas : UInt64) (e : CaseEnvironment) : Message :=
  ⟨e.caller.getD .zero, e.callData.getD [], gas⟩

def visible (e : CaseEnvironment) : Environment :=
  ⟨e.address.getD .zero, e.caller.getD .zero, e.callData.getD [],
    (Block.withCoinbase (e.coinbase.getD .zero)).header, some ⟨⟩⟩

/-- Every environment has a context in which a contract sees the environment. -/
theorem build_eq_ok (gas : UInt64) (e : CaseEnvironment) :
    ∃ c, build gas e = .ok c ∧ c.message = messageOf gas e ∧
      Contract.environment c.state c.account c.message = .ok (visible e) := by
  obtain ⟨t, ht, -⟩ := makeState_eq_ok (Block.withCoinbase (e.coinbase.getD .zero))
    (e.address.getD .zero)
  refine ⟨⟨messageOf gas e, Block.withCoinbase (e.coinbase.getD .zero), t, e.address.getD .zero⟩,
    ?_, rfl, environment_of_makeState ht _⟩
  simp only [build, ht, Except.mapError]
  rfl

end Context

end OpcodeConformance
