import OpcodeConformance.Wasm.Instance

namespace OpcodeConformance.Wasm

variable {η α β : Type} {R : η → η → Prop}

/-- Stores that differ at most in the states of their hosts, which are related. -/
structure Store.Alike (R : η → η → Prop) (s t : Store η) : Prop where
  memories : s.memories = t.memories
  globals : s.globals = t.globals
  host : R s.host t.host

structure Frame.Alike (R : η → η → Prop) (f g : Frame η) : Prop where
  store : f.store.Alike R g.store
  locals : f.locals = g.locals
  stack : f.stack = g.stack

/-- Both end, with related values, or both trap for one reason. -/
inductive Outcome.Alike (R : η → η → Prop) (Q : α → α → Prop) :
    Outcome η α → Outcome η α → Prop where
  | ends {x y : α} (h : Q x y) : Alike R Q (.ends x) (.ends y)
  | traps {t : Trap} {s u : Store η} (h : s.Alike R u) : Alike R Q (.traps t s) (.traps t u)

def Step.Alike (R : η → η → Prop) : Step η → Step η → Prop :=
  Outcome.Alike R fun x y => x.1 = y.1 ∧ x.2.Alike R y.2

def Call.Alike (R : η → η → Prop) : Call η → Call η → Prop :=
  Outcome.Alike R fun x y => x.1 = y.1 ∧ x.2.Alike R y.2

/-- Answers of a function of the host that code cannot tell apart. -/
def HostAlike (R : η → η → Prop) :
    Except String (List Value × HostView η) → Except String (List Value × HostView η) → Prop
  | .ok x, .ok y => x.1 = y.1 ∧ x.2.memory = y.2.memory ∧ R x.2.host y.2.host
  | .error e, .error e' => e = e'
  | _, _ => False

/-- The function answers related hosts alike. -/
def HostFunction.Respects (h : HostFunction η) (R : η → η → Prop) : Prop :=
  ∀ args m x y, R x y → HostAlike R (h.run args ⟨m, x⟩) (h.run args ⟨m, y⟩)

theorem Call.Alike.cases {c c' : Call η} (h : Call.Alike R c c') :
    (∃ results s t, c = .ends (results, s) ∧ c' = .ends (results, t) ∧ s.Alike R t) ∨
      ∃ trap s t, c = .traps trap s ∧ c' = .traps trap t ∧ s.Alike R t := by
  cases h with
  | @ends x y h =>
    obtain ⟨results, s⟩ := x
    obtain ⟨results', t⟩ := y
    obtain ⟨rfl, h⟩ := h
    exact .inl ⟨results, s, t, rfl, rfl, h⟩
  | @traps trap s t h => exact .inr ⟨trap, s, t, rfl, rfl, h⟩

theorem Step.Alike.cases {o o' : Step η} (h : Step.Alike R o o') :
    (∃ flow f g, o = .ends (flow, f) ∧ o' = .ends (flow, g) ∧ f.Alike R g) ∨
      ∃ trap s t, o = .traps trap s ∧ o' = .traps trap t ∧ s.Alike R t := by
  cases h with
  | @ends x y h =>
    obtain ⟨flow, f⟩ := x
    obtain ⟨flow', g⟩ := y
    obtain ⟨rfl, h⟩ := h
    exact .inl ⟨flow, f, g, rfl, rfl, h⟩
  | @traps trap s t h => exact .inr ⟨trap, s, t, rfl, rfl, h⟩

namespace Step.Alike

theorem goOn {f g : Frame η} {s t : Store η} {stack : List Value} (h : f.Alike R g)
    (hs : s.Alike R t) : Step.Alike R (f.goOn s stack) (g.goOn t stack) :=
  .ends ⟨rfl, hs, h.locals, rfl⟩

theorem push {f g : Frame η} (h : f.Alike R g) (v : Value) :
    Step.Alike R (f.push v) (g.push v) :=
  .ends ⟨rfl, h.store, h.locals, congrArg (v :: ·) h.stack⟩

theorem trap {f g : Frame η} (h : f.Alike R g) (t : Trap) :
    Step.Alike R (f.trap t) (g.trap t) := .traps h.store

theorem goOn_next {o o' : Step η} {next : Frame η → Step η} (h : Step.Alike R o o')
    (hnext : ∀ f g, f.Alike R g → Step.Alike R (next f) (next g)) :
    Step.Alike R (o.goOn next) (o'.goOn next) := by
  obtain ⟨flow, f, g, rfl, rfl, hf⟩ | ⟨trap, s, t, rfl, rfl, hs⟩ := h.cases
  · cases flow with
    | next => exact hnext f g hf
    | jump l => exact .ends ⟨rfl, hf⟩
  · exact .traps hs

theorem leave {o o' : Step η} (h : Step.Alike R o o') (count : Nat) (outer : List Value) :
    Step.Alike R (o.leave count outer) (o'.leave count outer) := by
  obtain ⟨flow, f, g, rfl, rfl, hf⟩ | ⟨trap, s, t, rfl, rfl, hs⟩ := h.cases
  · have hstack : f.stack.take count ++ outer = g.stack.take count ++ outer := by rw [hf.stack]
    match flow with
    | .next => exact .ends ⟨rfl, hf.store, hf.locals, hstack⟩
    | .jump 0 => exact .ends ⟨rfl, hf.store, hf.locals, hstack⟩
    | .jump (l + 1) => exact .ends ⟨rfl, hf⟩
  · exact .traps hs

end Step.Alike

namespace Store.Alike

variable {s t : Store η}

theorem withMemory (h : s.Alike R t) (i : Nat) (m : Memory) :
    (s.withMemory i m).Alike R (t.withMemory i m) :=
  ⟨congrArg (·.set i m) h.memories, h.globals, h.host⟩

theorem load?_eq (h : s.Alike R t) (a : Access) (memory address : Nat) :
    s.load? a memory address = t.load? a memory address := by
  rw [Store.load?, Store.load?, h.memories]

/-- Both writes fail, or both leave stores that are alike. -/
theorem write? (h : s.Alike R t) (memory address : Nat) (bs : Bytes) :
    (s.write? memory address bs = none ∧ t.write? memory address bs = none) ∨
      ∃ s' t', s.write? memory address bs = some s' ∧ t.write? memory address bs = some t' ∧
        s'.Alike R t' := by
  unfold Store.write?
  rw [h.memories]
  cases hm : t.memories[memory]? with
  | none => exact .inl ⟨rfl, rfl⟩
  | some m =>
    cases hw : m.write? address bs with
    | none => exact .inl ⟨by simp [hw], by simp [hw]⟩
    | some m' => exact .inr ⟨_, _, by simp [hw], by simp [hw], h.withMemory memory m'⟩

theorem update (h : s.Alike R t) (p : Program η) {v w : HostView η}
    (hm : v.memory = w.memory) (hh : R v.host w.host) :
    (p.update s v).Alike R (p.update t w) := by
  unfold Program.update
  rw [hm]
  have hs : Store.Alike R { s with host := v.host } { t with host := w.host } :=
    ⟨h.memories, h.globals, hh⟩
  split
  · exact hs.withMemory _ _
  · exact hs

end Store.Alike

def CallsAlike (R : η → η → Prop) (call : Nat → List Value → Store η → Call η) : Prop :=
  ∀ i args s t, s.Alike R t → Call.Alike R (call i args s) (call i args t)

theorem step_alike {p : Program η} {call : Nat → List Value → Store η → Call η}
    (hcall : CallsAlike R call) (o : Op) {f g : Frame η} (h : f.Alike R g) :
    Step.Alike R (step p call o f) (step p call o g) := by
  obtain ⟨s, locals, stack⟩ := f
  obtain ⟨t, locals', stack'⟩ := g
  obtain ⟨hs, hlocals, hstack⟩ := h
  dsimp only at hs hlocals hstack
  subst hlocals hstack
  -- locals and stack are now the same, so that both sides branch in the same way
  have h : Frame.Alike R ⟨s, locals, stack⟩ ⟨t, locals, stack⟩ := ⟨hs, rfl, rfl⟩
  cases o with
  | unreachable => exact .trap h _
  | unpaired => exact .trap h _
  | const v => exact .push h v
  | branch l => exact .ends ⟨rfl, h⟩
  | drop =>
    cases stack with
    | nil => exact .trap h _
    | cons v stack => exact .goOn h hs
  | localGet i =>
    simp only [step]
    split
    · exact .push h _
    · exact .trap h _
  | localSet i =>
    cases stack with
    | nil => exact .trap h _
    | cons v stack => exact .ends ⟨rfl, hs, rfl, rfl⟩
  | globalGet i =>
    simp only [step, hs.globals]
    split
    · exact .push h _
    · exact .trap h _
  | globalSet i =>
    cases stack with
    | nil => exact .trap h _
    | cons v stack =>
      exact .goOn h ⟨hs.memories, congrArg (·.set i v) hs.globals, hs.host⟩
  | call i =>
    simp only [step]
    split
    · exact .trap h _
    · rename_i type _
      obtain ⟨results, u, u', hc, hc', hu⟩ | ⟨trap, u, u', hc, hc', hu⟩ :=
        (hcall i (stack.take type.params.length).reverse s t hs).cases
      · rw [hc, hc']
        exact .goOn h hu
      · rw [hc, hc']
        exact .traps hu
  | branchIf l =>
    rcases stack with _ | ⟨⟨c⟩ | _ | _ | _ | _, stack⟩
    case cons.i32 => exact .ends ⟨rfl, hs, rfl, rfl⟩
    all_goals exact .trap h _
  | numeric n =>
    simp only [step]
    split
    · exact .goOn h hs
    · exact .trap h _
  | load a place =>
    rcases stack with _ | ⟨⟨i⟩ | _ | _ | _ | _, stack⟩
    case cons.i32 =>
      simp only [step, hs.load?_eq]
      split
      · exact .goOn h hs
      · exact .trap h _
    all_goals exact .trap h _
  | store a place =>
    rcases stack with _ | ⟨v, _ | ⟨⟨i⟩ | _ | _ | _ | _, stack⟩⟩
    case cons.cons.i32 =>
      simp only [step]
      split
      · exact .trap h _
      · rename_i bs _
        obtain ⟨hw, hw'⟩ | ⟨s', t', hw, hw', hs'⟩ :=
          hs.write? place.memory (i.toNat + place.offset) bs
        · rw [hw, hw']
          exact .trap h _
        · rw [hw, hw']
          exact .goOn h hs'
    all_goals exact .trap h _
  | memorySize m =>
    simp only [step, hs.memories]
    split
    · exact .push h _
    · exact .trap h _
  | memoryGrow m =>
    rcases stack with _ | ⟨⟨more⟩ | _ | _ | _ | _, stack⟩
    case cons.i32 =>
      simp only [step, hs.memories]
      split
      · split
        · exact .goOn h (hs.withMemory _ _)
        · exact .goOn h hs
      · exact .trap h _
    all_goals exact .trap h _

theorem iterate_alike {body : Frame η → Step η} (count : Nat)
    (hbody : ∀ f g, f.Alike R g → Step.Alike R (body f) (body g)) (n : Nat) {f g : Frame η}
    (h : f.Alike R g) : Step.Alike R (iterate count body n f) (iterate count body n g) := by
  induction n generalizing f g with
  | zero => exact .trap h _
  | succ n ih =>
    simp only [iterate]
    have hround := hbody { f with stack := f.stack.take count }
      { g with stack := g.stack.take count } ⟨h.store, h.locals, congrArg (·.take count) h.stack⟩
    obtain ⟨flow, f', g', hf, hg, h'⟩ | ⟨trap, s, t, hf, hg, hs⟩ := hround.cases
    · rw [hf, hg]
      match flow with
      | .next => exact .ends ⟨rfl, h'⟩
      | .jump 0 => exact ih h'
      | .jump (l + 1) => exact .ends ⟨rfl, h'⟩
    · rw [hf, hg]
      exact .traps hs

theorem skip_alike (count : Nat) (body : Code) {f g : Frame η} (h : f.Alike R g) :
    (skip count body f).Alike R (skip count body g) := by
  unfold skip
  split
  · exact ⟨h.store, congrArg (fun l => (Counting.ahead body l).2) h.locals, h.stack⟩
  · exact h

theorem run_alike {p : Program η} {call : Nat → List Value → Store η → Call η}
    (hcall : CallsAlike R call) (code : Code) {f g : Frame η} (h : f.Alike R g) :
    Step.Alike R (run p call code f) (run p call code g) := by
  induction code generalizing f g with
  | done => exact .ends ⟨rfl, h⟩
  | op o next ih => exact (step_alike hcall o h).goOn_next fun _ _ => ih
  | block type body next ihBody ih =>
    simp only [run, h.stack]
    have hbody := ihBody (f := { f with stack := g.stack.take type.params.length })
      (g := { g with stack := g.stack.take type.params.length }) ⟨h.store, h.locals, rfl⟩
    exact (hbody.leave _ _).goOn_next fun _ _ => ih
  | loop type body next ihBody ih =>
    simp only [run, h.stack]
    have hloop := iterate_alike type.params.length (fun _ _ => ihBody) greatestIterations
      (skip_alike type.params.length body h)
    exact (hloop.leave _ _).goOn_next fun _ _ => ih
  | choice type yes no next ihYes ihNo ih =>
    simp only [run, h.stack]
    split
    · rename_i c stack _
      have hinner : Frame.Alike R { f with stack := stack.take type.params.length }
        { g with stack := stack.take type.params.length } := ⟨h.store, h.locals, rfl⟩
      refine Step.Alike.goOn_next ?_ fun _ _ => ih
      split
      · exact (ihNo hinner).leave _ _
      · exact (ihYes hinner).leave _ _
    · exact .trap h _

theorem callHost_alike (p : Program η) {h : HostFunction η} (hh : h.Respects R)
    (args : List Value) (m : Option Memory) {s t : Store η} (hs : s.Alike R t) :
    Call.Alike R (p.callHost h ⟨m, s.host⟩ args s) (p.callHost h ⟨m, t.host⟩ args t) := by
  have hrun := hh args m s.host t.host hs.host
  unfold Program.callHost
  cases hx : h.run args ⟨m, s.host⟩ <;> cases hy : h.run args ⟨m, t.host⟩ <;>
    rw [hx, hy] at hrun
  case ok.ok x y =>
    obtain ⟨hresults, hm, hhost⟩ := hrun
    exact .ends ⟨hresults, hs.update p hm hhost⟩
  case error.error =>
    cases hrun
    exact .traps hs
  all_goals exact hrun.elim

theorem callWithin_alike (p : Program η) (hp : ∀ h ∈ p.imports, h.Respects R)
    (depth room : Nat) : CallsAlike R (p.callWithin depth room) := by
  induction depth generalizing room with
  | zero => exact fun _ _ _ _ hs => .traps hs
  | succ depth ih =>
    intro i args s t hs
    simp only [Program.callWithin, onStack_eq]
    split
    · rename_i h hi
      -- both hosts are shown the same memory
      have hview : (p.view s).memory = (p.view t).memory := by simp only [Program.view, hs.memories]
      have hcall := callHost_alike p (hp h (List.mem_of_getElem? hi)) args (p.view s).memory hs
      rwa [show p.view t = ⟨(p.view s).memory, t.host⟩ by rw [hview]; rfl]
    · split
      · split
        · exact .traps hs
        · rename_i f _ _
          have hrun := run_alike (p := p) (ih (room - p.stackUse (i - p.imports.length))) f.body
            (f := ⟨s, args ++ f.locals.map Value.zero, []⟩)
            (g := ⟨t, args ++ f.locals.map Value.zero, []⟩) ⟨hs, rfl, rfl⟩
          unfold Function.call
          obtain ⟨flow, g, g', hg, hg', h⟩ | ⟨trap, u, u', hg, hg', hu⟩ := hrun.cases
          · rw [hg, hg']
            exact .ends ⟨by simp only [h.stack], h.store⟩
          · rw [hg, hg']
            exact .traps hu
      · exact .traps hs

/-- Calls from outside the module from stores that are alike are alike. -/
theorem enter_alike (p : Program η) (hp : ∀ h ∈ p.imports, h.Respects R) :
    CallsAlike R p.enter := by
  intro i args s t hs
  unfold Program.enter
  split
  · rename_i h hi
    exact callHost_alike p (hp h (List.mem_of_getElem? hi)) args none hs
  · exact callWithin_alike p hp _ _ i args s t hs

end OpcodeConformance.Wasm
