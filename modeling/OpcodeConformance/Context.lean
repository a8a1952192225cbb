import OpcodeConformance.Block
import OpcodeConformance.Case
import OpcodeConformance.HarnessError

namespace OpcodeConformance

structure Context where
  message : Message
  block : Block
  state : StateTree
  account : Address

namespace Context

def makeState (b : Block) (account : Address) : Except StateError StateTree := do
  let t ← StateTree.empty.set [blockPath] (.ofValue (Json.Print.document b.print))
  let t ← t.set [historyPath] (.ofValue (Json.Print.document (ChainHistory.print ⟨⟩)))
  t.set (accountPath account) .empty

/-- The context of an environment, with the same gas for every message. What the environment leaves
out is the zero address or no data. -/
def build (gas : UInt64) (e : CaseEnvironment) : Except HarnessError Context := do
  let account := e.address.getD .zero
  let b := Block.withCoinbase (e.coinbase.getD .zero)
  let state ← (makeState b account).mapError .ofState
  return ⟨⟨e.caller.getD .zero, e.callData.getD [], gas⟩, b, state, account⟩

end Context

end OpcodeConformance
