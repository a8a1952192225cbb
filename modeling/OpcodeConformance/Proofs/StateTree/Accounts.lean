import Mathlib.Data.List.Nodup
import Mathlib.Data.Set.List
import OpcodeConformance.Block
import OpcodeConformance.Proofs.Address.Order
import OpcodeConformance.Proofs.StateTree.Hash

namespace OpcodeConformance

namespace Node

variable {t c : Node} {name : String}

theorem mem_edges_of_child? (h : t.child? name = some c) : (name, c) ∈ t.edges := by
  induction t with
  | leaf v => cases h
  | edge n d rest _ ih =>
    rw [child?] at h
    split at h
    · rename_i hname
      cases h
      exact hname ▸ .head _
    · exact .tail _ (ih h)

theorem mem_edges_iff (ht : t.Ordered) : (name, c) ∈ t.edges ↔ t.child? name = some c :=
  ⟨ht.child?_of_mem, mem_edges_of_child?⟩

theorem Ordered.pairwise_edges (ht : t.Ordered) : t.edges.Pairwise fun e f => e.1 < f.1 := by
  induction t with
  | leaf v => exact .nil
  | edge n c rest _ ih =>
    obtain ⟨-, hrest, hbefore⟩ := ht
    exact .cons (fun e he => compareOfLessAndEq_eq_lt.mp (hbefore e he)) (ih hrest)

end Node

namespace StateTree

abbrev Account := Address × StateTree

def accountEdge (p : Account) : String × Node := (p.1.toHex, p.2.root)

/-- The edges of the node that keeps the accounts; none if there is no such node. -/
def accountEdges (t : StateTree) : List (String × Node) :=
  match t.get [accountsPath] with
  | .ok c => c.edges
  | .error _ => []

def storeAccounts (t : StateTree) (accounts : List Account) : Except StateError StateTree :=
  accounts.foldlM (fun t p => t.set (accountPath p.1) p.2) t

variable {t u : StateTree} {p : Account} {as accounts : List Account} {name : String} {c : Node}

theorem accountEdge_injective : Function.Injective accountEdge := by
  rintro ⟨a, c⟩ ⟨b, d⟩ h
  obtain ⟨hname, hroot⟩ := Prod.mk.inj h
  exact Prod.ext (Address.toHex_injective hname) (root_injective hroot)

theorem mem_accountEdges_iff :
    (name, c) ∈ t.accountEdges ↔ t.root.get? [accountsPath, name] = some c := by
  have hpath : t.root.get? [accountsPath, name] =
      (t.root.get? [accountsPath]).bind (Node.get? [name]) := Node.get?_append [accountsPath] [name] _
  rw [hpath, accountEdges]
  cases h : t.get [accountsPath] with
  | ok d =>
    have hname : d.root.get? [name] = d.root.child? name := Option.bind_fun_some _
    rw [get_eq_ok_iff.mp h, Option.bind_some, hname]
    exact Node.mem_edges_iff d.ordered
  | error e =>
    rw [(get_eq_error_iff.mp h).1]
    simp

theorem pairwise_accountEdges (t : StateTree) :
    t.accountEdges.Pairwise fun e f => e.1 < f.1 := by
  unfold accountEdges
  split
  · rename_i d hd
    exact d.ordered.pairwise_edges
  · exact .nil

/-- Accounts are listed in the order of their addresses, however they were stored. -/
theorem pairwise_accounts (h : t.accountEdges = as.map accountEdge) :
    as.Pairwise fun p q => p.1 < q.1 := by
  have hedges := pairwise_accountEdges t
  rw [h, List.pairwise_map] at hedges
  exact hedges.imp Address.toHex_lt_iff.mp

/-- Edges with the hex forms of addresses for names are the edges of accounts. -/
theorem exists_accounts (h : ∀ e ∈ t.accountEdges, ∃ a : Address, a.toHex = e.1) :
    ∃ as : List Account, t.accountEdges = as.map accountEdge := by
  have hrange : t.accountEdges ∈ Set.range (List.map accountEdge) := by
    rw [Set.range_list_map]
    rintro ⟨name, c⟩ he
    obtain ⟨a, rfl⟩ := h _ he
    have hc : c.Ordered := t.ordered.get? (mem_accountEdges_iff.mp he)
    exact ⟨(a, ⟨c, hc⟩), rfl⟩
  obtain ⟨as, has⟩ := hrange
  exact ⟨as, has.symm⟩

theorem exists_set_account (t : StateTree) (p : Account) :
    ∃ u, t.set (accountPath p.1) p.2 = .ok u ∧
      u.root.get? (accountPath p.1) = some p.2.root ∧
      ∀ name, p.1.toHex ≠ name →
        u.root.get? [accountsPath, name] = t.root.get? [accountsPath, name] := by
  refine ⟨_, set_cons t p.2 accountsPath [p.1.toHex], ?_, fun name hne => ?_⟩
  · exact Node.get?_put accountsPath [p.1.toHex] p.2.root t.root
  · apply Node.get?_put_of_not_prefix
    · simpa using Ne.symm hne
    · simpa using hne

/-- Of accounts with different addresses each stands at its path when all are stored, and the nodes of
other names are what they were. -/
theorem exists_storeAccounts (t : StateTree) (accounts : List Account) :
    ∃ u, t.storeAccounts accounts = .ok u ∧
      (∀ name, (∀ p ∈ accounts, p.1.toHex ≠ name) →
        u.root.get? [accountsPath, name] = t.root.get? [accountsPath, name]) ∧
      ((accounts.map Prod.fst).Nodup → ∀ p ∈ accounts,
        u.root.get? (accountPath p.1) = some p.2.root) := by
  induction accounts generalizing t with
  | nil => exact ⟨t, rfl, fun _ _ => rfl, fun _ p hp => nomatch hp⟩
  | cons q accounts ih =>
    obtain ⟨v, hv, hself, hother⟩ := exists_set_account t q
    obtain ⟨u, hu, hframe, hstored⟩ := ih v
    refine ⟨u, ?_, fun name hname => ?_, fun hdistinct p hp => ?_⟩
    · rw [storeAccounts, List.foldlM_cons, hv]
      exact hu
    · rw [hframe name fun p hp => hname p (.tail _ hp), hother name (hname q (.head _))]
    · obtain ⟨hnew, hdistinct⟩ := List.nodup_cons.mp hdistinct
      rcases List.mem_cons.mp hp with rfl | hp
      · -- none of the later accounts has this address
        have hkept : ∀ r ∈ accounts, r.1.toHex ≠ p.1.toHex := by
          intro r hr h
          exact hnew (List.mem_map.mpr ⟨r, hr, Address.toHex_injective h⟩)
        exact (hframe p.1.toHex hkept).trans hself
      · exact hstored hdistinct p hp

/-- Where there were no accounts, every edge is that of an account that was stored. -/
theorem exists_account_of_mem (ht : t.accountEdges = []) (hu : t.storeAccounts accounts = .ok u)
    (h : (name, c) ∈ u.accountEdges) : ∃ p ∈ accounts, p.1.toHex = name := by
  obtain ⟨v, hv, hframe, -⟩ := exists_storeAccounts t accounts
  cases hu.symm.trans hv
  by_contra hno
  have hkept : ∀ p ∈ accounts, p.1.toHex ≠ name := fun p hp hname => hno ⟨p, hp, hname⟩
  rw [mem_accountEdges_iff, hframe name hkept, ← mem_accountEdges_iff, ht] at h
  cases h

theorem accountEdge_mem_iff (ht : t.accountEdges = []) (hdistinct : (accounts.map Prod.fst).Nodup)
    (hu : t.storeAccounts accounts = .ok u) : accountEdge p ∈ u.accountEdges ↔ p ∈ accounts := by
  obtain ⟨v, hv, -, hstored⟩ := exists_storeAccounts t accounts
  cases hu.symm.trans hv
  constructor
  · intro h
    obtain ⟨q, hq, hname⟩ := exists_account_of_mem ht hu h
    have hread : u.root.get? [accountsPath, p.1.toHex] = some q.2.root :=
      hname ▸ hstored hdistinct q hq
    have hroot := Option.some.inj (hread.symm.trans (mem_accountEdges_iff.mp h))
    have hpq : q = p := accountEdge_injective (Prod.ext hname hroot)
    exact hpq ▸ hq
  · exact fun h => mem_accountEdges_iff.mpr (hstored hdistinct p h)

/-- Where there were no accounts, those that are stored are all that are listed. -/
theorem exists_perm_accounts (ht : t.accountEdges = [])
    (hdistinct : (accounts.map Prod.fst).Nodup) (hu : t.storeAccounts accounts = .ok u) :
    ∃ as : List Account, as.Perm accounts ∧ u.accountEdges = as.map accountEdge := by
  have hnames : ∀ e ∈ u.accountEdges, ∃ a : Address, a.toHex = e.1 := by
    rintro ⟨name, c⟩ he
    obtain ⟨p, -, hname⟩ := exists_account_of_mem ht hu he
    exact ⟨p.1, hname⟩
  obtain ⟨as, has⟩ := exists_accounts hnames
  have hlisted : as.Nodup := by
    refine (pairwise_accounts has).imp ?_
    rintro p q h rfl
    exact Address.lt_irrefl p.1 h
  refine ⟨as, ?_, has⟩
  rw [List.perm_ext_iff_of_nodup hlisted hdistinct.of_map]
  intro p
  rw [← accountEdge_mem_iff ht hdistinct hu, has,
    List.mem_map_of_injective accountEdge_injective]

/-- Addresses stand in the order of their numbers and in that of the bytes of their hex forms, which
are different for different addresses. So the accounts that a state lists ascend, whatever the state
is. Of accounts with different addresses that are stored in any order, each stands at its path, and
if there were no others, they are what is listed, in ascending order. -/
theorem account_keys_keep_order :
    (∀ a b : Address,
      (a < b ↔ Bytes.bigValue a.bytes < Bytes.bigValue b.bytes) ∧
      (a < b ↔ Bytes.ofString a.toHex < Bytes.ofString b.toHex) ∧
      (a.toHex = b.toHex → a = b)) ∧
    (∀ (t : StateTree) (as : List Account), t.accountEdges = as.map accountEdge →
      as.Pairwise fun p q => p.1 < q.1) ∧
    ∀ (t : StateTree) (accounts : List Account), (accounts.map Prod.fst).Nodup →
      ∃ u, t.storeAccounts accounts = .ok u ∧
        (∀ p ∈ accounts, u.get (accountPath p.1) = .ok p.2) ∧
        (t.accountEdges = [] → ∃ as : List Account, as.Perm accounts ∧
          u.accountEdges = as.map accountEdge ∧ as.Pairwise fun p q => p.1 < q.1) := by
  refine ⟨fun a b => ⟨Address.lt_iff_bigValue, ?_, fun h => Address.toHex_injective h⟩,
    fun t as => pairwise_accounts, fun t accounts hdistinct => ?_⟩
  · rw [Bytes.ofString_lt_iff, Address.toHex_lt_iff]
  · obtain ⟨u, hu, -, hstored⟩ := exists_storeAccounts t accounts
    refine ⟨u, hu, fun p hp => get_eq_ok_iff.mpr (hstored hdistinct p hp), fun ht => ?_⟩
    obtain ⟨as, hperm, has⟩ := exists_perm_accounts ht hdistinct hu
    exact ⟨as, hperm, has, pairwise_accounts has⟩

/-- Two accounts whose addresses differ in both halves of a byte, the greater stored first. -/
theorem account_keys_keep_order_descending :
    let a : Address := ⟨List.replicate 19 0 ++ [0x9f], rfl⟩
    let b : Address := ⟨List.replicate 19 0 ++ [0xa0], rfl⟩
    Bytes.ofString a.toHex < Bytes.ofString b.toHex ∧
      ∃ u, empty.storeAccounts [(b, ofValue [1]), (a, ofValue [2])] = .ok u ∧
        u.get (accountPath a) = .ok (ofValue [2]) ∧
        u.accountEdges = [accountEdge (a, ofValue [2]), accountEdge (b, ofValue [1])] := by
  intro a b
  obtain ⟨horder, -, hstore⟩ := account_keys_keep_order
  have hab : a < b := by decide
  obtain ⟨u, hu, hread, hlisted⟩ :=
    hstore empty [(b, ofValue [1]), (a, ofValue [2])] (by decide)
  obtain ⟨as, hperm, has, hascending⟩ := hlisted rfl
  have heq : as = [(a, ofValue [2]), (b, ofValue [1])] := by
    refine List.Perm.eq_of_pairwise ?_ hascending ?_ (hperm.trans (.swap _ _ _))
    · exact fun p q _ _ hpq hqp => absurd hqp (List.lt_asymm hpq)
    · simpa using hab
  refine ⟨(horder a b).2.1.mp hab, u, hu, ?_, ?_⟩
  · exact hread (a, ofValue [2]) (.tail _ (.head _))
  · rw [has, heq]
    rfl

end StateTree

end OpcodeConformance
