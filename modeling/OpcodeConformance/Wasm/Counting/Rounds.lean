import OpcodeConformance.Wasm.Execution

namespace OpcodeConformance.Wasm.Counting

variable {η : Type}

/-- A number times `s` is a multiple of `n` only if the number is one of `n / gcd n s`. -/
theorem period_dvd {n s k : Nat} (hn : 0 < n) (h : n ∣ k * s) : n / n.gcd s ∣ k := by
  have hg : 0 < n.gcd s := Nat.gcd_pos_of_pos_left _ hn
  have hd : n / n.gcd s ∣ s / n.gcd s * k := by
    rw [Nat.mul_comm, ← Nat.mul_div_assoc _ (Nat.gcd_dvd_right n s)]
    exact Nat.div_dvd_div (Nat.gcd_dvd_left n s) h
  exact (Nat.coprime_div_gcd_div_gcd hg).dvd_of_dvd_mul_left hd

theorem rounds_lt (x step : UInt32) :
    rounds x step < UInt32.size / Nat.gcd UInt32.size step.toNat := by
  have hpos : 0 < UInt32.size / Nat.gcd UInt32.size step.toNat :=
    Nat.div_pos (Nat.gcd_le_left _ (Nat.succ_pos _)) (Nat.gcd_pos_of_pos_left _ (Nat.succ_pos _))
  unfold rounds
  dsimp only
  split
  · exact Nat.mod_lt _ hpos
  · exact hpos

theorem eq_zero_of_rounds_pos {x step : UInt32} (h : 0 < rounds x step) :
    x + UInt32.ofNat (rounds x step) * step = 0 := by
  unfold rounds at h ⊢
  dsimp only at h ⊢
  split at h
  · next hc => rw [if_pos hc]; exact hc
  · exact absurd h (Nat.lt_irrefl 0)

theorem ne_zero_of_lt_rounds {x step : UInt32} {j : Nat} (h : j < rounds x step) :
    x + UInt32.ofNat j * step ≠ 0 := by
  intro hj
  have hk := eq_zero_of_rounds_pos (Nat.lt_of_le_of_lt (Nat.zero_le j) h)
  have hlt := rounds_lt x step
  generalize rounds x step = k at *
  have hd : UInt32.ofNat (k - j) * step = 0 := by
    rw [UInt32.ofNat_sub (Nat.le_of_lt h)]
    grind
  have hdvd : UInt32.size ∣ (k - j) * step.toNat := by
    have h0 := congrArg UInt32.toNat hd
    rw [UInt32.toNat_mul, UInt32.toNat_ofNat', Nat.mod_mul_mod] at h0
    exact Nat.dvd_of_mod_eq_zero h0
  have hn : 0 < UInt32.size := Nat.succ_pos _
  have := Nat.le_of_dvd (by omega) (period_dvd hn hdvd)
  omega

def Operand.value (locals : List Value) : Operand → Value
  | .number x => .i32 (x.value locals)
  | .isZero x => .ofBool (x.value locals = 0)

/-- A frame is where the progress says, if the body has begun with these locals. -/
structure Progress.Describes (p : Progress) (before : List Value) (f : Frame η) : Prop where
  length : p.shifts.length = before.length
  locals : f.locals = p.advance 1 before
  stack : f.stack = p.operands.map (Operand.value before)

structure Progress.GoesOn (p : Progress) (locals : List Value) : Prop where
  used : ∀ i ∈ p.used, isNumber locals i
  guards : ∀ x ∈ p.guards, x.value locals ≠ 0

structure Progress.Before (p q : Progress) : Prop where
  length : q.shifts.length = p.shifts.length
  used : p.used ⊆ q.used
  guards : p.guards ⊆ q.guards

theorem value_of_add? {x y z : Shifted} (h : x.add? y = some z) (locals : List Value) :
    z.value locals = x.value locals + y.value locals := by
  rcases x with ⟨_ | i, a⟩
  · rcases y with ⟨_ | j, b⟩
    · cases h
      rfl
    · cases h
      show number locals j + (a + b) = a + (number locals j + b)
      grind
  · rcases y with ⟨_ | j, b⟩
    · cases h
      exact (UInt32.add_assoc _ _ _).symm
    · cases h

theorem value_of_sub? {x y z : Shifted} (h : x.sub? y = some z) (locals : List Value) :
    z.value locals = x.value locals - y.value locals := by
  rcases y with ⟨_ | j, b⟩
  · rcases x with ⟨_ | i, a⟩
    · cases h
      rfl
    · cases h
      show number locals i + (a - b) = number locals i + a - b
      grind
  · cases h

theorem exists_of_isNumber {locals : List Value} {i : Nat} (h : isNumber locals i) :
    locals[i]? = some (.i32 (number locals i)) := by
  unfold isNumber at h
  unfold number
  split at h <;> simp_all

namespace Progress

theorem getElem?_advance {p : Progress} {xs : List Value} {i : Nat} {s : UInt32}
    (count : Nat) (hx : isNumber xs i) (hs : p.shifts[i]? = some s) :
    (p.advance count xs)[i]? = some (.i32 (number xs i + UInt32.ofNat count * s)) := by
  unfold advance
  rw [List.getElem?_zipWith, exists_of_isNumber hx, hs]
  rfl

theorem advance_set {p : Progress} {xs : List Value} {i : Nat} (s : UInt32)
    (hx : isNumber xs i) (hlen : p.shifts.length = xs.length) :
    (p.advance 1 xs).set i (.i32 (number xs i + s)) =
      { p with shifts := p.shifts.set i s }.advance 1 xs := by
  have hx := exists_of_isNumber hx
  apply List.ext_getElem?
  intro j
  unfold advance
  rw [List.getElem?_set, List.getElem?_zipWith, List.getElem?_zipWith, List.getElem?_set,
    List.length_zipWith, hlen, Nat.min_self]
  by_cases hij : i = j
  · subst hij
    have hi : i < xs.length := (List.getElem?_eq_some_iff.1 hx).1
    rw [if_pos rfl, if_pos rfl, if_pos hi, if_pos hi, hx]
    simp only [move]
    congr 2
    grind
  · rw [if_neg hij, if_neg hij]

structure Leads (program : Program η) (call : Nat → List Value → Store η → Call η) (o : Op)
    (p q : Progress) : Prop where
  before : p.Before q
  step : ∀ {xs : List Value} {f : Frame η}, p.Describes xs f → q.GoesOn xs →
    ∃ g, Wasm.step program call o f = .ends (.next, g) ∧ g.store = f.store ∧ q.Describes xs g

section

variable (program : Program η) (call : Nat → List Value → Store η → Call η)

theorem leads_of_binary? {p q : Progress} {o : Op} {c : Shifted → Shifted → Option Operand}
    (h : p.binary? c = some q)
    (ho : ∀ {x y : Shifted} {z : Operand} (xs stack locals : List Value) (store : Store η),
      c x y = some z →
        Wasm.step program call o ⟨store, locals, .i32 (y.value xs) :: .i32 (x.value xs) :: stack⟩ =
          .ends (.next, ⟨store, locals, z.value xs :: stack⟩)) :
    Leads program call o p q := by
  unfold binary? at h
  split at h
  · next y x os heq =>
    obtain ⟨z, hz, rfl⟩ := Option.map_eq_some_iff.1 h
    refine ⟨⟨rfl, List.Subset.refl _, List.Subset.refl _⟩, fun {xs f} hf _ => ?_⟩
    rcases f with ⟨store, locals, stack⟩
    have hst : stack = p.operands.map (Operand.value xs) := hf.stack
    rw [heq] at hst
    subst hst
    exact ⟨_, ho xs _ locals store hz, rfl, hf.length, hf.locals, rfl⟩
  · cases h

theorem leads_of_set? {p q : Progress} {i : Nat} (h : p.set? i = some q) :
    Leads program call (.localSet i) p q := by
  unfold set? at h
  split at h
  · next j s os heq =>
    split at h
    · next hij =>
      subst hij
      cases h
      refine ⟨⟨List.length_set, List.subset_cons_self _ _, List.Subset.refl _⟩,
        fun {xs f} hf hq => ?_⟩
      rcases f with ⟨store, locals, stack⟩
      have hst : stack = p.operands.map (Operand.value xs) := hf.stack
      have hloc : locals = p.advance 1 xs := hf.locals
      rw [heq] at hst
      subst hst hloc
      exact ⟨_, rfl, rfl, List.length_set.trans hf.length,
        advance_set s (hq.used i List.mem_cons_self) hf.length, rfl⟩
    · cases h
  · cases h

theorem leads_of_compare? {p q : Progress} (h : p.compare? = some q) :
    Leads program call (.numeric .i32Eqz) p q := by
  unfold compare? at h
  split at h
  · next x os heq =>
    cases h
    refine ⟨⟨rfl, List.Subset.refl _, List.Subset.refl _⟩, fun {xs f} hf _ => ?_⟩
    rcases f with ⟨store, locals, stack⟩
    have hst : stack = p.operands.map (Operand.value xs) := hf.stack
    rw [heq] at hst
    subst hst
    exact ⟨_, rfl, rfl, hf.length, hf.locals, rfl⟩
  · cases h

theorem leads_of_pass? {p q : Progress} {l : Nat} (h : p.pass? = some q) :
    Leads program call (.branchIf (l + 1)) p q := by
  unfold pass? at h
  split at h
  · next x os heq =>
    cases h
    refine ⟨⟨rfl, List.Subset.refl _, List.subset_cons_self _ _⟩, fun {xs f} hf hq => ?_⟩
    rcases f with ⟨store, locals, stack⟩
    have hst : stack = p.operands.map (Operand.value xs) := hf.stack
    rw [heq] at hst
    subst hst
    have hx := hq.guards x List.mem_cons_self
    refine ⟨⟨store, locals, os.map (Operand.value xs)⟩, ?_, rfl, hf.length, hf.locals, rfl⟩
    rw [List.map_cons, Operand.value, decide_eq_false hx]
    rfl
  · cases h

theorem leads_of_localGet {p : Progress} {i : Nat} {s : UInt32} (hs : p.shifts[i]? = some s) :
    Leads program call (.localGet i) p
      { p with operands := .number ⟨some i, s⟩ :: p.operands, used := i :: p.used } := by
  refine ⟨⟨rfl, List.subset_cons_self _ _, List.Subset.refl _⟩, fun {xs f} hf hq => ?_⟩
  rcases f with ⟨store, locals, stack⟩
  have hst : stack = p.operands.map (Operand.value xs) := hf.stack
  have hloc : locals = p.advance 1 xs := hf.locals
  subst hst hloc
  have hx := getElem?_advance 1 (hq.used i List.mem_cons_self) hs
  rw [show UInt32.ofNat 1 * s = s from UInt32.one_mul s] at hx
  refine ⟨⟨store, p.advance 1 xs, .i32 (number xs i + s) :: p.operands.map (Operand.value xs)⟩,
    ?_, rfl, hf.length, rfl, rfl⟩
  unfold Wasm.step
  simp only [hx, Frame.push]

theorem leads_of_step? {p q : Progress} {o : Op} (h : p.step? o = some q) :
    Leads program call o p q := by
  cases o with
  | const v =>
    cases v with
    | i32 c =>
      cases h
      refine ⟨⟨rfl, List.Subset.refl _, List.Subset.refl _⟩, fun hf _ => ?_⟩
      exact ⟨_, rfl, rfl, hf.length, hf.locals, congrArg _ hf.stack⟩
    | _ => cases h
  | localGet i =>
    obtain ⟨s, hs, rfl⟩ := Option.map_eq_some_iff.1 h
    exact leads_of_localGet program call hs
  | localSet i => exact leads_of_set? program call h
  | branchIf l =>
    cases l with
    | zero => cases h
    | succ l => exact leads_of_pass? program call h
  | numeric n =>
    cases n with
    | i32Add =>
      refine leads_of_binary? program call h fun {x y z} xs stack locals store hz => ?_
      obtain ⟨w, hw, rfl⟩ := Option.map_eq_some_iff.1 hz
      rw [Operand.value, value_of_add? hw]
      rfl
    | i32Sub =>
      refine leads_of_binary? program call h fun {x y z} xs stack locals store hz => ?_
      obtain ⟨w, hw, rfl⟩ := Option.map_eq_some_iff.1 hz
      rw [Operand.value, value_of_sub? hw]
      rfl
    | i32Eq =>
      refine leads_of_binary? program call h fun {x y z} xs stack locals store hz => ?_
      obtain ⟨w, hw, rfl⟩ := Option.map_eq_some_iff.1 hz
      have he : (x.value xs - y.value xs = 0) = (x.value xs = y.value xs) :=
        propext ⟨fun e => by grind, fun e => by grind⟩
      rw [Operand.value, value_of_sub? hw]
      simp only [he]
      rfl
    | i32Eqz => exact leads_of_compare? program call h
    | _ => cases h
  | _ => cases h

end

theorem Before.trans {p q r : Progress} (h : p.Before q) (h' : q.Before r) : p.Before r :=
  ⟨h'.length.trans h.length, fun _ hi => h'.used (h.used hi), fun _ hx => h'.guards (h.guards hx)⟩

theorem GoesOn.of_before {p q : Progress} {xs : List Value} (h : q.GoesOn xs) (hb : p.Before q) :
    p.GoesOn xs :=
  ⟨fun i hi => h.used i (hb.used hi), fun x hx => h.guards x (hb.guards hx)⟩

theorem before_of_finish? {c : Code} {p q : Progress} (program : Program η)
    (call : Nat → List Value → Store η → Call η) (h : finish? c p = some q) : p.Before q := by
  fun_induction finish? c p with
  | case1 => cases h; exact ⟨rfl, List.Subset.refl _, List.Subset.refl _⟩
  | case2 p x xs heq =>
    cases h
    exact ⟨rfl, List.Subset.refl _, List.subset_cons_self _ _⟩
  | case3 => cases h
  | case4 o next p _ _ r hr ih => exact (leads_of_step? program call hr).before.trans (ih h)
  | case5 => cases h
  | case6 => cases h

/-- A body that goes on jumps to its beginning, and has changed nothing but the locals. -/
theorem run_of_finish? {c : Code} {p q : Progress} {xs : List Value} {f : Frame η}
    (program : Program η) (call : Nat → List Value → Store η → Call η)
    (h : finish? c p = some q) (hf : p.Describes xs f) (hq : q.GoesOn xs) :
    ∃ g, run program call c f = .ends (.jump 0, g) ∧ g.store = f.store ∧
      q.shifts.length = xs.length ∧ g.locals = q.advance 1 xs := by
  fun_induction finish? c p generalizing f with
  | case1 next p =>
    cases h
    exact ⟨f, rfl, rfl, hf.length, hf.locals⟩
  | case2 next p x os heq =>
    cases h
    have hst := hf.stack
    rw [heq] at hst
    have hx := hq.guards x List.mem_cons_self
    rcases f with ⟨store, locals, stack⟩
    simp only at hst
    subst hst
    refine ⟨⟨store, locals, os.map (Operand.value xs)⟩, ?_, rfl, hf.length, hf.locals⟩
    simp only [run, step, List.map_cons, Operand.value, hx]
    rfl
  | case3 => cases h
  | case4 o next p _ _ r hr ih =>
    obtain ⟨g, hg, hs, hd⟩ :=
      (leads_of_step? program call hr).step hf (hq.of_before (before_of_finish? program call h))
    obtain ⟨g', hg', hs', hl⟩ := ih h hd
    refine ⟨g', ?_, hs'.trans hs, hl⟩
    rw [run, hg]
    exact hg'
  | case5 => cases h
  | case6 => cases h

theorem length_advance {p : Progress} {xs : List Value} (count : Nat)
    (hlen : p.shifts.length = xs.length) : (p.advance count xs).length = xs.length := by
  rw [advance, List.length_zipWith, hlen, Nat.min_self]

theorem move_zero (v : Value) (s : UInt32) : move 0 v s = v := by
  cases v with
  | i32 w => exact congrArg Value.i32 (by simp)
  | _ => rfl

theorem move_move (count : Nat) (v : Value) (s : UInt32) :
    move 1 (move count v s) s = move (count + 1) v s := by
  cases v with
  | i32 w =>
    refine congrArg Value.i32 ?_
    rw [UInt32.ofNat_add]
    grind
  | _ => rfl

theorem advance_start (count : Nat) (xs : List Value) :
    (start xs.length).advance count xs = xs := by
  apply List.ext_getElem
  · exact length_advance count List.length_replicate
  · intro i h h'
    simp only [start, advance, List.getElem_zipWith, List.getElem_replicate]
    cases xs[i] with
    | i32 w => exact congrArg Value.i32 (by simp)
    | _ => rfl

theorem advance_zero {p : Progress} {xs : List Value} (hlen : p.shifts.length = xs.length) :
    p.advance 0 xs = xs := by
  apply List.ext_getElem
  · exact length_advance 0 hlen
  · intro i h h'
    simp only [advance, List.getElem_zipWith, move_zero]

theorem advance_advance {p : Progress} {xs : List Value} (count : Nat)
    (hlen : p.shifts.length = xs.length) :
    p.advance 1 (p.advance count xs) = p.advance (count + 1) xs := by
  apply List.ext_getElem
  · have hlen' := length_advance count hlen
    rw [length_advance 1 (hlen.trans hlen'.symm), hlen', length_advance (count + 1) hlen]
  · intro i h h'
    simp only [advance, List.getElem_zipWith, move_move]

theorem value_advance {p : Progress} {xs : List Value} {x : Shifted} (count : Nat)
    (hlen : p.shifts.length = xs.length) (hx : ∀ i, x.base = some i → isNumber xs i) :
    x.value (p.advance count xs) = x.value xs + UInt32.ofNat count * x.step p.shifts := by
  rcases x with ⟨_ | i, s⟩
  · simp only [Shifted.value, Shifted.step]
    grind
  · have hi := hx i rfl
    have hs : p.shifts[i]? = some (p.shifts.getD i 0) := by
      have := (List.getElem?_eq_some_iff.1 (exists_of_isNumber hi)).1
      grind
    have ha := getElem?_advance count hi hs
    simp only [Shifted.value, Shifted.step]
    rw [number, ha]
    grind

theorem goesOn_advance {p : Progress} {xs : List Value} {count : Nat}
    (hlen : p.shifts.length = xs.length) (h : count < p.rounds xs) :
    p.GoesOn (p.advance count xs) := by
  unfold rounds at h
  split at h
  · next hall =>
    rw [List.all_append, Bool.and_eq_true, List.all_eq_true, List.all_eq_true] at hall
    obtain ⟨hused, hbase⟩ := hall
    constructor
    · intro i hi
      have hx := hused i hi
      have hs : p.shifts[i]? = some (p.shifts.getD i 0) := by
        have := (List.getElem?_eq_some_iff.1 (exists_of_isNumber hx)).1
        grind
      rw [isNumber, getElem?_advance count hx hs]
    · intro x hx
      rw [value_advance count hlen fun i hi =>
        hbase i (List.mem_filterMap.2 ⟨x, hx, hi⟩)]
      apply ne_zero_of_lt_rounds
      cases hm : (p.guards.map fun x => Counting.rounds (x.value xs) (x.step p.shifts)).min? with
      | none => exact absurd (hm ▸ h) (Nat.not_lt_zero _)
      | some m =>
        rw [hm] at h
        exact Nat.lt_of_lt_of_le h
          ((List.min?_eq_some_iff.1 hm).2 _ (List.mem_map_of_mem hx))
  · exact absurd h (Nat.not_lt_zero _)

end Progress

theorem iterate_withStack (body : Frame η → Step η) (n : Nat) (f : Frame η) (s : List Value) :
    iterate 0 body n { f with stack := s } = iterate 0 body n f := by
  cases n <;> rfl

theorem iterate_advance {body : Code} {q : Progress} {f : Frame η}
    (program : Program η) (call : Nat → List Value → Store η → Call η)
    (h : Progress.finish? body (.start f.locals.length) = some q) (n k : Nat)
    (hk : k ≤ q.rounds f.locals) :
    iterate 0 (run program call body) (n + k) f =
      iterate 0 (run program call body) n { f with locals := q.advance k f.locals } := by
  have hlen : q.shifts.length = f.locals.length := by
    rw [(Progress.before_of_finish? program call h).length, Progress.start, List.length_replicate]
  induction k generalizing n with
  | zero => rw [Progress.advance_zero hlen]; rfl
  | succ k ih =>
    have hgo := Progress.goesOn_advance hlen (Nat.lt_of_succ_le hk)
    rw [show n + (k + 1) = n + 1 + k by omega, ih (n + 1) (by omega)]
    have hlen' := Progress.length_advance k hlen
    have hd : Progress.Describes (.start f.locals.length) (q.advance k f.locals)
        { f with locals := q.advance k f.locals, stack := [] } :=
      ⟨by rw [hlen', Progress.start, List.length_replicate],
        (hlen' ▸ Progress.advance_start 1 (q.advance k f.locals)).symm, rfl⟩
    obtain ⟨g, hg, hs, -, hl⟩ := Progress.run_of_finish? program call h hd hgo
    rw [Progress.advance_advance k hlen] at hl
    rw [iterate, List.take_zero, hg]
    rcases g with ⟨store, locals, stack⟩
    simp only at hs hl ⊢
    subst hs hl
    exact iterate_withStack _ n { f with locals := q.advance (k + 1) f.locals } stack

/-- A loop that starts behind the rounds that are told in advance ends as the whole loop does. -/
theorem iterate_skip (program : Program η) (call : Nat → List Value → Store η → Call η)
    (body : Code) (f : Frame η) (n : Nat) :
    iterate 0 (run program call body) (n + (ahead body f.locals).1) f =
      iterate 0 (run program call body) n (skip 0 body f) := by
  unfold skip ahead
  rw [if_pos rfl]
  cases h : Progress.finish? body (.start f.locals.length) with
  | none => rfl
  | some q => exact iterate_advance program call h n _ (Nat.le_refl _)

end OpcodeConformance.Wasm.Counting
