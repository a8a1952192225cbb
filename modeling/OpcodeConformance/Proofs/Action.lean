import OpcodeConformance.Machine

namespace OpcodeConformance.Action

variable {ε ε' ω α β : Type}

@[simp] theorem pure_apply (x : α) (s : ω) : (pure x : Action ε ω α) s = (.ok x, s) := rfl

theorem bind_apply (a : Action ε ω α) (f : α → Action ε ω β) (s : ω) :
    (a >>= f) s =
      match a s with
      | (.ok x, t) => f x t
      | (.error e, t) => (.error e, t) := by
  change StateT.bind a (ExceptT.bindCont f) s = _
  unfold StateT.bind
  rcases a s with ⟨_ | x, t⟩ <;> rfl

theorem bind_of_ok {a : Action ε ω α} {f : α → Action ε ω β} {s t : ω} {x : α}
    (h : a s = (.ok x, t)) : (a >>= f) s = f x t := by
  rw [bind_apply, h]

theorem mapError_of_ok {a : Action ε ω α} {f : ε → ε'} {s t : ω} {x : α}
    (h : a s = (.ok x, t)) : a.mapError f s = (.ok x, t) := by
  rw [mapError, h]

theorem bind_of_eq {a : StateM ω α} {f : α → StateM ω β} {s t : ω} {x : α} (h : a s = (x, t)) :
    (a >>= f) s = f x t := by
  change f (a s).1 (a s).2 = _
  rw [h]

theorem mapM_nil_apply (f : α → StateM ω β) (s : ω) : ([].mapM f : StateM ω (List β)) s = ([], s) :=
  rfl

theorem mapM_cons_apply (f : α → StateM ω β) (x : α) (xs : List α) (s : ω) :
    (x :: xs).mapM f s = ((f x s).1 :: (xs.mapM f (f x s).2).1, (xs.mapM f (f x s).2).2) := by
  rw [List.mapM_cons]
  rfl

theorem length_mapM (f : α → StateM ω β) (xs : List α) (s : ω) :
    (xs.mapM f s).1.length = xs.length := by
  induction xs generalizing s with
  | nil => rfl
  | cons x xs ih => rw [mapM_cons_apply, List.length_cons, ih, List.length_cons]

end OpcodeConformance.Action
