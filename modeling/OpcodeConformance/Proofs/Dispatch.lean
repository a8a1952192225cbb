import Mathlib.Algebra.Ring.Nat
import OpcodeConformance.Proofs.Action
import OpcodeConformance.Proofs.Input

namespace OpcodeConformance

/-- What can be asked of a machine. -/
inductive Request (κ : Type) where
  | create (code : κ) (state : StateTree) (account : Address)
  | receive (m : Message)
  | attach
  | call (name : String) (params : List Int64)
  | write (offset : Nat) (bs : Bytes)
  | read (offset len : Nat)
  | settle

def Request.isCall {κ : Type} : Request κ → Bool
  | .call .. => true
  | _ => false

/-- The action with a note put behind those taken before. The note is taken also if it fails. -/
def Action.noting {ε ω ρ α : Type} (r : ρ) (a : Action ε ω α) : Action ε (ω × List ρ) α :=
  fun s => ((a s.1).1, (a s.1).2, s.2 ++ [r])

def Action.withoutValue {ε ω α β : Type} (a : Action ε ω α) : Action ε ω (Option β) :=
  fun s => ((a s).1.map fun _ => none, (a s).2)

namespace Machine

variable {κ ω : Type}

/-- The machine that takes a note of every request. -/
def logged (m : Machine κ ω) : Machine κ (ω × List (Request κ)) where
  create code state account := (m.create code state account).noting (.create code state account)
  receive x := (m.receive x).noting (.receive x)
  attach := m.attach.noting .attach
  call name params := (m.call name params).noting (.call name params)
  write offset bs := (m.write offset bs).noting (.write offset bs)
  read offset len := (m.read offset len).noting (.read offset len)
  settle := m.settle.noting .settle
  gasLeft s := m.gasLeft s.1
  returnValue s := m.returnValue s.1

/-- Makes a request. Only calls are answered with a value. -/
def perform (m : Machine κ ω) : Request κ → Action Fault ω (Option Int64)
  | .create code state account => (m.create code state account).withoutValue
  | .receive x => (m.receive x).withoutValue
  | .attach => m.attach.withoutValue
  | .call name params => m.call name params
  | .write offset bs => (m.write offset bs).withoutValue
  | .read offset len => (m.read offset len).withoutValue
  | .settle => m.settle.withoutValue

theorem perform_logged (m : Machine κ ω) (r : Request κ) :
    m.logged.perform r = (m.perform r).noting r := by
  cases r <;> rfl

/-- The state behind requests, whether they have failed or not. -/
def after (m : Machine κ ω) : List (Request κ) → ω → ω
  | [], s => s
  | r :: rs, s => m.after rs (m.perform r s).2

def answer (m : Machine κ ω) (rs : List (Request κ)) (r : Request κ) (s : ω) :
    Except Fault (Option Int64) := (m.perform r (m.after rs s)).1

/-- The request with a number fails, and it is the first that does. -/
structure FirstFailure (m : Machine κ ω) (rs : List (Request κ)) (s : ω) (k : Nat) (f : Fault) :
    Prop where
  before : ∀ j r, j < k → rs[j]? = some r → (m.answer (rs.take j) r s).isOk
  fails : ∃ r, rs[k]? = some r ∧ m.answer (rs.take k) r s = .error f

/-- No request fails. -/
def Accepts (m : Machine κ ω) (rs : List (Request κ)) (s : ω) : Prop :=
  ∀ j r, rs[j]? = some r → (m.answer (rs.take j) r s).isOk

/-- Makes requests up to the first that fails, and gives the answer to the last call. -/
def ask (m : Machine κ ω) (value : Option Int64) :
    List (Request κ) → Action HarnessError ω (Option Int64)
  | [] => return value
  | r :: rs => do
    let a ← (m.perform r).mapError .ofFault
    m.ask (if r.isCall then a else value) rs

theorem ask_append (m : Machine κ ω) (value : Option Int64) (rs rs' : List (Request κ)) :
    m.ask value (rs ++ rs') = m.ask value rs >>= fun v => m.ask v rs' := by
  induction rs generalizing value with
  | nil => rw [ask, pure_bind, List.nil_append]
  | cons r rs ih => simp only [List.cons_append, ask, ih, bind_assoc]

theorem ask_logged_cons (m : Machine κ ω) (value : Option Int64) (r : Request κ)
    (rs : List (Request κ)) (s : ω) (log : List (Request κ)) :
    m.logged.ask value (r :: rs) (s, log) =
      match (m.perform r s).1 with
      | .error f => (.error (.ofFault f), (m.perform r s).2, log ++ [r])
      | .ok a =>
        m.logged.ask (if r.isCall then a else value) rs ((m.perform r s).2, log ++ [r]) := by
  rw [ask, Action.bind_apply, Action.mapError, perform_logged, Action.noting]
  cases (m.perform r s).1 <;> rfl

theorem accepts_cons {m : Machine κ ω} {r : Request κ} {rs : List (Request κ)} {s : ω} :
    m.Accepts (r :: rs) s ↔ (m.perform r s).1.isOk ∧ m.Accepts rs (m.perform r s).2 := by
  constructor
  · intro h
    exact ⟨h 0 r rfl, fun j q hj => h (j + 1) q hj⟩
  · rintro ⟨h, h'⟩ j q hj
    cases j with
    | zero =>
      cases hj
      exact h
    | succ j => exact h' j q hj

theorem firstFailure_zero {m : Machine κ ω} {r : Request κ} {rs : List (Request κ)} {s : ω}
    {f : Fault} : m.FirstFailure (r :: rs) s 0 f ↔ (m.perform r s).1 = .error f := by
  constructor
  · rintro ⟨-, q, hq, h⟩
    cases hq
    exact h
  · intro h
    exact ⟨fun j _ hj => absurd hj (Nat.not_lt_zero j), r, rfl, h⟩

theorem firstFailure_succ {m : Machine κ ω} {r : Request κ} {rs : List (Request κ)} {s : ω}
    {k : Nat} {f : Fault} : m.FirstFailure (r :: rs) s (k + 1) f ↔
      (m.perform r s).1.isOk ∧ m.FirstFailure rs (m.perform r s).2 k f := by
  constructor
  · rintro ⟨h, q, hq, hf⟩
    exact ⟨h 0 r (Nat.succ_pos k) rfl,
      fun j p hj hp => h (j + 1) p (Nat.succ_lt_succ hj) hp, q, hq, hf⟩
  · rintro ⟨h, h', q, hq, hf⟩
    refine ⟨fun j p hj hp => ?_, q, hq, hf⟩
    cases j with
    | zero =>
      cases hp
      exact h
    | succ j => exact h' j p (Nat.lt_of_succ_lt_succ hj) hp

theorem after_append (m : Machine κ ω) (rs rs' : List (Request κ)) (s : ω) :
    m.after (rs ++ rs') s = m.after rs' (m.after rs s) := by
  induction rs generalizing s with
  | nil => rfl
  | cons r rs ih => exact ih _

theorem accepts_append {m : Machine κ ω} {rs rs' : List (Request κ)} {s : ω} :
    m.Accepts (rs ++ rs') s ↔ m.Accepts rs s ∧ m.Accepts rs' (m.after rs s) := by
  induction rs generalizing s with
  | nil =>
    have hnil : m.Accepts [] s := fun j r h => by cases h
    exact ⟨fun h => ⟨hnil, h⟩, fun h => h.2⟩
  | cons r rs ih => rw [List.cons_append, accepts_cons, accepts_cons, ih, and_assoc, after]

/-- A failure is among the first requests, or these are accepted and it is among the others. -/
theorem firstFailure_append {m : Machine κ ω} {rs rs' : List (Request κ)} {s : ω} {k : Nat}
    {f : Fault} : m.FirstFailure (rs ++ rs') s k f ↔
      m.FirstFailure rs s k f ∨ m.Accepts rs s ∧
        ∃ j, k = rs.length + j ∧ m.FirstFailure rs' (m.after rs s) j f := by
  induction rs generalizing s k with
  | nil =>
    have hnil : m.Accepts [] s := fun j r h => by cases h
    constructor
    · exact fun h => .inr ⟨hnil, k, (Nat.zero_add k).symm, h⟩
    · rintro (⟨-, r, hr, -⟩ | ⟨-, j, rfl, h⟩)
      · cases hr
      · rwa [List.length_nil, Nat.zero_add]
  | cons r rs ih =>
    rw [List.cons_append, accepts_cons, after, List.length_cons]
    cases k with
    | zero =>
      rw [firstFailure_zero, firstFailure_zero]
      refine ⟨.inl, ?_⟩
      rintro (h | ⟨-, j, hj, -⟩)
      · exact h
      · omega
    | succ k =>
      rw [firstFailure_succ, firstFailure_succ, ih]
      constructor
      · rintro ⟨hr, h | ⟨h, j, hj, h'⟩⟩
        · exact .inl ⟨hr, h⟩
        · exact .inr ⟨⟨hr, h⟩, j, by omega, h'⟩
      · rintro (⟨hr, h⟩ | ⟨⟨hr, h⟩, j, hj, h'⟩)
        · exact ⟨hr, .inl h⟩
        · exact ⟨hr, .inr ⟨h, j, by omega, h'⟩⟩

theorem FirstFailure.lt_length {m : Machine κ ω} {rs : List (Request κ)} {s : ω} {k : Nat}
    {f : Fault} (h : m.FirstFailure rs s k f) : k < rs.length := by
  obtain ⟨-, r, hr, -⟩ := h
  exact (List.getElem?_eq_some_iff.mp hr).1

theorem FirstFailure.not_accepts {m : Machine κ ω} {rs : List (Request κ)} {s : ω} {k : Nat}
    {f : Fault} (h : m.FirstFailure rs s k f) : ¬m.Accepts rs s := by
  obtain ⟨-, r, hr, hf⟩ := h
  intro haccepts
  have hok := haccepts k r hr
  rw [hf] at hok
  cases hok

theorem accepts_or_firstFailure (m : Machine κ ω) (rs : List (Request κ)) (s : ω) :
    m.Accepts rs s ∨ ∃ k f, m.FirstFailure rs s k f := by
  induction rs generalizing s with
  | nil => exact .inl fun j r h => by cases h
  | cons r rs ih =>
    cases hr : (m.perform r s).1 with
    | error f => exact .inr ⟨0, f, firstFailure_zero.2 hr⟩
    | ok a =>
      have hok : (m.perform r s).1.isOk := by rw [hr]; rfl
      rcases ih (m.perform r s).2 with h | ⟨k, f, h⟩
      · exact .inl (accepts_cons.2 ⟨hok, h⟩)
      · exact .inr ⟨k + 1, f, firstFailure_succ.2 ⟨hok, h⟩⟩

/-- Requests of which one fails are made up to that one. -/
theorem ask_logged_of_firstFailure {m : Machine κ ω} {rs : List (Request κ)} {s : ω} {k : Nat}
    {f : Fault} (h : m.FirstFailure rs s k f) (value : Option Int64) (log : List (Request κ)) :
    m.logged.ask value rs (s, log) =
      (.error (.ofFault f), m.after (rs.take (k + 1)) s, log ++ rs.take (k + 1)) := by
  induction rs generalizing s k value log with
  | nil =>
    obtain ⟨r, hr, -⟩ := h.fails
    cases hr
  | cons r rs ih =>
    rw [ask_logged_cons]
    cases k with
    | zero =>
      rw [firstFailure_zero.1 h]
      rfl
    | succ k =>
      obtain ⟨hok, h⟩ := firstFailure_succ.1 h
      obtain ⟨a, ha⟩ := Results.isOk_iff.1 hok
      rw [ha]
      simp only
      rw [ih h, List.append_assoc]
      rfl

/-- Requests that are all accepted are all made. -/
theorem ask_logged_of_accepts {m : Machine κ ω} {rs : List (Request κ)} {name : String}
    {params : List Int64} {s : ω} (h : m.Accepts (rs ++ [Request.call name params, .settle]) s)
    (value : Option Int64) (log : List (Request κ)) :
    ∃ a, m.answer rs (.call name params) s = .ok a ∧
      m.logged.ask value (rs ++ [Request.call name params, .settle]) (s, log) =
        (.ok a, m.after (rs ++ [Request.call name params, .settle]) s,
          log ++ (rs ++ [Request.call name params, .settle])) := by
  induction rs generalizing s value log with
  | nil =>
    obtain ⟨hc, h⟩ := accepts_cons.1 h
    obtain ⟨hs, -⟩ := accepts_cons.1 h
    obtain ⟨a, ha⟩ := Results.isOk_iff.1 hc
    obtain ⟨b, hb⟩ := Results.isOk_iff.1 hs
    refine ⟨a, ha, ?_⟩
    rw [List.nil_append, ask_logged_cons, ha]
    simp only
    rw [ask_logged_cons, hb, List.append_assoc]
    rfl
  | cons r rs ih =>
    obtain ⟨hr, h⟩ := accepts_cons.1 h
    obtain ⟨b, hb⟩ := Results.isOk_iff.1 hr
    obtain ⟨a, ha, hask⟩ := ih h (if r.isCall then b else value) (log ++ [r])
    refine ⟨a, ha, ?_⟩
    rw [List.cons_append, ask_logged_cons, hb]
    simp only
    rw [hask, List.append_assoc]
    rfl

/-- Taking notes changes nothing else. -/
theorem ask_eq_logged (m : Machine κ ω) (value : Option Int64) (rs : List (Request κ)) (s : ω)
    (log : List (Request κ)) :
    m.ask value rs s =
      ((m.logged.ask value rs (s, log)).1, (m.logged.ask value rs (s, log)).2.1) := by
  induction rs generalizing value s log with
  | nil => rfl
  | cons r rs ih =>
    rw [ask_logged_cons, ask, Action.bind_apply, Action.mapError]
    rcases m.perform r s with ⟨_ | a, t⟩
    · rfl
    · exact ih _ t (log ++ [r])

end Machine

namespace Dispatch

variable {κ ω : Type}

/-- The requests that write the words of the stack: each word reversed, at its index times 32. -/
def stackRequests (ws : List Bytes) : List (Request κ) :=
  ws.zipIdx.map fun w => .write (32 * w.2) w.1.reverse

def memoryRequests (base : Nat) (ws : List (Nat × Bytes)) : List (Request κ) :=
  ws.map fun w => .write (w.1 + base) w.2.reverse

def preparation (base : Nat) (code : κ) (c : Context) (i : PreparedInput) : List (Request κ) :=
  [Request.create code c.state c.account, .receive c.message, .attach,
    .call "setSP" [Int64.ofInt (((i.stack.length : Int) - 1) * 32)]]
    ++ (stackRequests i.stack ++ memoryRequests base i.memory)

def requests (base : Nat) (code : κ) (c : Context) (i : PreparedInput) (op : String)
    (params : List Int64) : List (Request κ) :=
  preparation base code c i ++ [.call op params, .settle]

theorem mapError_withoutValue {ε ε' α β : Type} (a : Action ε ω α) (f : ε → ε') :
    (a.withoutValue (β := β)).mapError f = (fun _ => none) <$> a.mapError f := by
  funext s
  rw [map_eq_pure_bind, Action.bind_apply]
  simp only [Action.withoutValue, Action.mapError]
  rcases a s with ⟨_ | x, t⟩ <;> rfl

theorem writeStack_eq_ask (m : Machine κ ω) (value : Option Int64) (k : Nat) (ws : List Bytes) :
    writeStack m k ws >>= (fun _ => return value) =
      m.ask value ((ws.zipIdx k).map fun w => .write (32 * w.2) w.1.reverse) := by
  induction ws generalizing k with
  | nil => rfl
  | cons w ws ih =>
    rw [List.zipIdx_cons, List.map_cons, Machine.ask, Machine.perform, mapError_withoutValue,
      bind_map_left, writeStack, bind_assoc, ih, Nat.mul_comm]
    rfl

theorem writeMemory_eq_ask (m : Machine κ ω) (value : Option Int64) (base : Nat)
    (ws : List (Nat × Bytes)) :
    writeMemory m base ws >>= (fun _ => return value) = m.ask value (memoryRequests base ws) := by
  induction ws with
  | nil => rfl
  | cons w ws ih =>
    rw [memoryRequests, List.map_cons, Machine.ask, Machine.perform, mapError_withoutValue,
      bind_map_left, writeMemory, bind_assoc, ih]
    rfl

/-- A run makes its requests and gives the answer to the call of the opcode. -/
theorem execute_eq_ask (m : Machine κ ω) (base : Nat) (code : κ) (c : Context)
    (i : PreparedInput) (op : String) (params : List Int64) :
    execute m base code c i op params = m.ask none (requests base code c i op params) := by
  rw [execute, requests, preparation]
  simp only [List.append_assoc, Machine.ask_append, stackRequests, ← writeStack_eq_ask,
    ← writeMemory_eq_ask, Machine.ask, Machine.perform, mapError_withoutValue, bind_map_left,
    bind_assoc, pure_bind]
  rfl

theorem toInt_stackPointer {len : Nat} (h : len ≤ 2 ^ 58) :
    (Int64.ofInt (((len : Int) - 1) * 32)).toInt = ((len : Int) - 1) * 32 := by
  rw [Int64.toInt_ofInt]
  have hsize : Int64.size = 2 ^ 64 := rfl
  apply Int.bmod_eq_of_le <;> omega

section Runs

variable {m : Machine κ ω} {base : Nat} {code : κ} {c : Context} {i : PreparedInput} {op : String}
  {params : List Int64} {s : ω}

theorem execute_of_firstFailure {k : Nat} {f : Fault}
    (h : m.FirstFailure (requests base code c i op params) s k f) :
    execute m base code c i op params s =
      (.error (.ofFault f), m.after ((requests base code c i op params).take (k + 1)) s) := by
  rw [execute_eq_ask, Machine.ask_eq_logged m none _ s [], Machine.ask_logged_of_firstFailure h]

theorem execute_of_accepts (h : m.Accepts (requests base code c i op params) s) :
    ∃ a, m.answer (preparation base code c i) (.call op params) s = .ok a ∧
      execute m base code c i op params s =
        (.ok a, m.after (requests base code c i op params) s) := by
  obtain ⟨a, ha, hask⟩ := Machine.ask_logged_of_accepts h none []
  refine ⟨a, ha, ?_⟩
  rw [execute_eq_ask, Machine.ask_eq_logged m none _ s [], requests, hask]

end Runs

/-- A run makes the requests of its list one after the other, whatever the machine does. If one
fails, the run ends with it and tells its message, and the requests behind it are never made; else
the run gives what the opcode has returned. -/
theorem execute_logged (m : Machine κ ω) (base : Nat) (code : κ) (c : Context) (i : PreparedInput)
    (op : String) (params : List Int64) (s : ω) :
    let rs := requests base code c i op params
    let run := execute m.logged base code c i op params (s, [])
    (m.Accepts rs s ∨ ∃ k f, m.FirstFailure rs s k f) ∧
    (∀ k f, m.FirstFailure rs s k f →
      run = (.error (.execution f.message), m.after (rs.take (k + 1)) s, rs.take (k + 1))) ∧
    (m.Accepts rs s → ∃ a, m.answer (preparation base code c i) (.call op params) s = .ok a ∧
      run = (.ok a, m.after rs s, rs)) ∧
    (run.1.isOk ↔ m.Accepts rs s) ∧
    execute m base code c i op params s = (run.1, run.2.1) ∧
    (i.stack.length ≤ 2 ^ 58 → (Int64.ofInt (((i.stack.length : Int) - 1) * 32)).toInt =
      ((i.stack.length : Int) - 1) * 32) ∧
    (∀ input, PreparedInput.ofInput input = .ok i → i.memory.Pairwise fun a b => a.1 < b.1) := by
  intro rs run
  have hfail : ∀ k f, m.FirstFailure rs s k f →
      run = (.error (.execution f.message), m.after (rs.take (k + 1)) s, rs.take (k + 1)) := by
    intro k f h
    have hask := Machine.ask_logged_of_firstFailure h none []
    rwa [← execute_eq_ask, List.nil_append] at hask
  have hok : m.Accepts rs s →
      ∃ a, m.answer (preparation base code c i) (.call op params) s = .ok a ∧
        run = (.ok a, m.after rs s, rs) := by
    intro h
    obtain ⟨a, ha, hask⟩ := Machine.ask_logged_of_accepts h none []
    refine ⟨a, ha, ?_⟩
    rwa [← requests, ← execute_eq_ask, List.nil_append] at hask
  refine ⟨m.accepts_or_firstFailure rs s, hfail, hok, ⟨fun h => ?_, fun h => ?_⟩, ?_,
    toInt_stackPointer, fun input => PreparedInput.ascending_of_ofInput⟩
  -- a failure would be the answer of the run
  · rcases m.accepts_or_firstFailure rs s with ha | ⟨k, f, hf⟩
    · exact ha
    · rw [hfail k f hf] at h
      cases h
  · obtain ⟨a, -, ha⟩ := hok h
    rw [ha]
    rfl
  · rw [execute_eq_ask, Machine.ask_eq_logged, ← execute_eq_ask]

end Dispatch

end OpcodeConformance
