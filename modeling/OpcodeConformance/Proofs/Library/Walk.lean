import Mathlib.Data.Finset.Card
import Mathlib.Data.Finset.SDiff
import Mathlib.Logic.Relation
import OpcodeConformance.Proofs.Library

namespace OpcodeConformance

namespace Library

open Relation

/-- A function is declared to call another one. -/
def Calls (functions : Table String FunctionEntry) (a b : String) : Prop :=
  ∃ e, functions.get? a = some e ∧ b ∈ e.deps

theorem calls_iff {functions : Table String FunctionEntry} {a b : String} :
    Calls functions a b ↔ b ∈ (functions.get? a).elim [] (·.deps) := by
  unfold Calls
  cases functions.get? a <;> simp

instance (functions : Table String FunctionEntry) (a b : String) :
    Decidable (Calls functions a b) := decidable_of_iff _ calls_iff.symm

/-- A function is among some, or called by one of them directly or through others. -/
def Needs (functions : Table String FunctionEntry) (names : List String) (n : String) : Prop :=
  ∃ r ∈ names, ReflTransGen (Calls functions) r n

/-- The outcomes of visiting functions one after the other, each with what it calls, on the way
that a walk has come. -/
inductive Walks (functions : Table String FunctionEntry) :
    List String → Walk → Except LibraryError Walk → Prop
  | nil {w} : Walks functions [] w (.ok w)
  | met {w name names r} (hmet : name ∈ w.met) (hrest : Walks functions names w r) :
    Walks functions (name :: names) w r
  | unknown {w name names} (hnew : name ∉ w.met) (hnone : functions.get? name = none) :
    Walks functions (name :: names) w (.error (.unknownFunction name))
  | failed {w name names e f} (hnew : name ∉ w.met) (he : functions.get? name = some e)
    (hcallees : Walks functions e.deps { w with met := name :: w.met } (.error f)) :
    Walks functions (name :: names) w (.error f)
  | done {w name names e w' r} (hnew : name ∉ w.met) (he : functions.get? name = some e)
    (hcallees : Walks functions e.deps { w with met := name :: w.met } (.ok w'))
    (hrest : Walks functions names { w' with done := w'.done ++ [name] } r) :
    Walks functions (name :: names) w r

variable {functions : Table String FunctionEntry} {names names' : List String} {name : String}
  {w w' w'' : Walk} {new new' : List String} {r r' : Except LibraryError Walk}

theorem Walks.unique (h : Walks functions names w r) (h' : Walks functions names w r') :
    r = r' := by
  induction h generalizing r' with
  | nil =>
    cases h'
    rfl
  | met hmet _ ih =>
    cases h' with
    | met _ hrest => exact ih hrest
    | unknown hnew | failed hnew | done hnew => exact absurd hmet hnew
  | unknown hnew hnone =>
    cases h' with
    | met hmet => exact absurd hmet hnew
    | unknown => rfl
    | failed _ he | done _ he => cases hnone.symm.trans he
  | failed hnew he _ ih =>
    cases h' with
    | met hmet => exact absurd hmet hnew
    | unknown _ hnone => cases hnone.symm.trans he
    | failed _ he' hcallees =>
      cases he.symm.trans he'
      exact ih hcallees
    | done _ he' hcallees =>
      cases he.symm.trans he'
      cases ih hcallees
  | done hnew he _ _ ih ihrest =>
    cases h' with
    | met hmet => exact absurd hmet hnew
    | unknown _ hnone => cases hnone.symm.trans he
    | failed _ he' hcallees =>
      cases he.symm.trans he'
      cases ih hcallees
    | done _ he' hcallees hrest =>
      cases he.symm.trans he'
      cases ih hcallees
      exact ihrest hrest

/-- How a walk goes on when it visits functions: `new` are the functions that it does, in order. -/
structure Walk.Continues (functions : Table String FunctionEntry) (names : List String)
    (w w' : Walk) (new : List String) : Prop where
  done : w'.done = w.done ++ new
  mem_met : ∀ n, n ∈ w'.met ↔ n ∈ w.met ∨ n ∈ new
  visited : ∀ n ∈ names, n ∈ w'.met
  fresh : ∀ n ∈ new, n ∉ w.met
  nodup : new.Nodup
  needed : ∀ n ∈ new, Needs functions names n
  declared : ∀ n ∈ new, ∃ e, functions.get? n = some e
  /-- What a function calls was met before, or is done before it, or calls it in turn. -/
  callees : ∀ n ∈ new, ∀ b, Calls functions n b →
    b ∈ w.met ∨ b ∈ new ∧ (new.idxOf b < new.idxOf n ∨ ReflTransGen (Calls functions) b n)

theorem Needs.mono (h : Needs functions names name) (hsub : names ⊆ names') :
    Needs functions names' name := by
  obtain ⟨root, hroot, hpath⟩ := h
  exact ⟨root, hsub hroot, hpath⟩

namespace Walk.Continues

theorem refl (w : Walk) : w.Continues functions [] w [] where
  done := (List.append_nil _).symm
  mem_met n := by simp
  visited n h := nomatch h
  fresh n h := nomatch h
  nodup := .nil
  needed n h := nomatch h
  declared n h := nomatch h
  callees n h := nomatch h

theorem of_met (h : w.Continues functions names w' new) (hmet : name ∈ w.met) :
    w.Continues functions (name :: names) w' new where
  done := h.done
  mem_met := h.mem_met
  visited := List.forall_mem_cons.mpr ⟨(h.mem_met name).mpr (.inl hmet), h.visited⟩
  fresh := h.fresh
  nodup := h.nodup
  needed n hn := (h.needed n hn).mono (List.subset_cons_self _ _)
  declared := h.declared
  callees := h.callees

theorem trans (h : w.Continues functions names w' new)
    (h' : w'.Continues functions names' w'' new') :
    w.Continues functions (names ++ names') w'' (new ++ new') where
  done := by rw [h'.done, h.done, List.append_assoc]
  mem_met n := by rw [h'.mem_met, h.mem_met, List.mem_append, or_assoc]
  visited n hn := by
    rcases List.mem_append.mp hn with hn | hn
    · exact (h'.mem_met n).mpr (.inl (h.visited n hn))
    · exact h'.visited n hn
  fresh n hn hmet := by
    rcases List.mem_append.mp hn with hn | hn
    · exact h.fresh n hn hmet
    · exact h'.fresh n hn ((h.mem_met n).mpr (.inl hmet))
  nodup := by
    refine List.nodup_append.mpr ⟨h.nodup, h'.nodup, fun a ha b hb hab => ?_⟩
    exact h'.fresh b hb ((h.mem_met b).mpr (.inr (hab ▸ ha)))
  needed n hn := by
    rcases List.mem_append.mp hn with hn | hn
    · exact (h.needed n hn).mono (List.subset_append_left _ _)
    · exact (h'.needed n hn).mono (List.subset_append_right _ _)
  declared n hn := by
    rcases List.mem_append.mp hn with hn | hn
    · exact h.declared n hn
    · exact h'.declared n hn
  callees n hn b hb := by
    rcases List.mem_append.mp hn with hn | hn
    · refine (h.callees n hn b hb).imp_right fun ⟨hmem, hbefore⟩ => ?_
      rw [List.idxOf_append_of_mem hmem, List.idxOf_append_of_mem hn]
      exact ⟨List.mem_append_left _ hmem, hbefore⟩
    -- done later than all of `new`, so a callee met in between is done before
    · have hlater : n ∉ new := fun hmem => h'.fresh n hn ((h.mem_met n).mpr (.inr hmem))
      rw [List.idxOf_append_of_notMem hlater]
      rcases h'.callees n hn b hb with hmet | ⟨hmem, hbefore⟩
      · refine ((h.mem_met b).mp hmet).imp_right fun hmem => ?_
        refine ⟨List.mem_append_left _ hmem, .inl ?_⟩
        rw [List.idxOf_append_of_mem hmem]
        exact Nat.lt_add_right _ (List.idxOf_lt_length_iff.mpr hmem)
      · have hlater' : b ∉ new := fun hmem' =>
          h'.fresh b hmem ((h.mem_met b).mpr (.inr hmem'))
        rw [List.idxOf_append_of_notMem hlater']
        exact .inr ⟨List.mem_append_right _ hmem, hbefore.imp_left (Nat.add_lt_add_left · _)⟩

/-- A function is done behind what it calls. -/
theorem visit {e : FunctionEntry} (hnew : name ∉ w.met) (he : functions.get? name = some e)
    (h : { w with met := name :: w.met }.Continues functions e.deps w' new) :
    w.Continues functions [name] { w' with done := w'.done ++ [name] } (new ++ [name]) where
  done := by rw [h.done, List.append_assoc]
  mem_met n := by
    rw [h.mem_met, List.mem_cons, List.mem_append, List.mem_singleton]
    tauto
  visited n hn := by
    obtain rfl := List.mem_singleton.mp hn
    exact (h.mem_met n).mpr (.inl (.head _))
  fresh n hn hmet := by
    rcases List.mem_append.mp hn with hn | hn
    · exact h.fresh n hn (.tail _ hmet)
    · exact hnew (List.mem_singleton.mp hn ▸ hmet)
  nodup := by
    refine List.nodup_append.mpr ⟨h.nodup, List.nodup_singleton _, fun a ha b hb hab => ?_⟩
    obtain rfl := List.mem_singleton.mp hb
    exact h.fresh a ha (hab ▸ .head _)
  needed n hn := by
    rcases List.mem_append.mp hn with hn | hn
    · obtain ⟨dep, hdep, hpath⟩ := h.needed n hn
      exact ⟨name, .head _, .head ⟨e, he, hdep⟩ hpath⟩
    · obtain rfl := List.mem_singleton.mp hn
      exact ⟨n, .head _, .refl⟩
  declared n hn := by
    rcases List.mem_append.mp hn with hn | hn
    · exact h.declared n hn
    · exact ⟨e, List.mem_singleton.mp hn ▸ he⟩
  callees n hn b hb := by
    have hself : name ∉ new := fun hmem => h.fresh name hmem (.head _)
    rcases List.mem_append.mp hn with hdone | hn
    · rcases h.callees n hdone b hb with hmet | ⟨hmem, hbefore⟩
      · rcases List.mem_cons.mp hmet with rfl | hmet
        -- the function itself, which is met and not done while what it calls is visited
        · obtain ⟨dep, hdep, hpath⟩ := h.needed n hdone
          exact .inr ⟨List.mem_append_right _ (.head _), .inr (.head ⟨e, he, hdep⟩ hpath)⟩
        · exact .inl hmet
      · rw [List.idxOf_append_of_mem hmem, List.idxOf_append_of_mem hdone]
        exact .inr ⟨List.mem_append_left _ hmem, hbefore⟩
    · obtain rfl := List.mem_singleton.mp hn
      obtain ⟨e', he', hdep⟩ := hb
      cases he.symm.trans he'
      rcases (h.mem_met b).mp (h.visited b hdep) with hmet | hmem
      · rcases List.mem_cons.mp hmet with rfl | hmet
        · exact .inr ⟨List.mem_append_right _ (.head _), .inr .refl⟩
        · exact .inl hmet
      · refine .inr ⟨List.mem_append_left _ hmem, .inl ?_⟩
        rw [List.idxOf_append_of_mem hmem, List.idxOf_append_of_notMem hself]
        exact Nat.lt_add_right _ (List.idxOf_lt_length_iff.mpr hmem)

end Walk.Continues

/-- A walk that ends without failure has visited what it was to visit, and done what that needs. -/
theorem Walks.exists_continues (h : Walks functions names w (.ok w')) :
    ∃ new, w.Continues functions names w' new := by
  generalize hr : Except.ok w' = r at h
  induction h generalizing w' with
  | nil =>
    cases hr
    exact ⟨[], .refl _⟩
  | met hmet _ ih =>
    obtain ⟨new, hrest⟩ := ih hr
    exact ⟨new, hrest.of_met hmet⟩
  | unknown | failed => cases hr
  | done hnew he _ _ ih ihrest =>
    obtain ⟨below, hcallees⟩ := ih rfl
    obtain ⟨behind, hrest⟩ := ihrest hr
    exact ⟨_, (hcallees.visit hnew he).trans hrest⟩

/-- A walk that fails has come to a needed function that is not declared. -/
theorem Walks.exists_unknown {f : LibraryError} (h : Walks functions names w (.error f)) :
    ∃ u, f = .unknownFunction u ∧ Needs functions names u ∧ functions.get? u = none := by
  generalize hr : Except.error f = r at h
  induction h with
  | nil => cases hr
  | met _ _ ih =>
    obtain ⟨u, hf, hneeded, hnone⟩ := ih hr
    exact ⟨u, hf, hneeded.mono (List.subset_cons_self _ _), hnone⟩
  | @unknown _ name _ _ hnone =>
    cases hr
    exact ⟨name, rfl, ⟨name, .head _, .refl⟩, hnone⟩
  | @failed _ name _ e _ _ he _ ih =>
    cases hr
    obtain ⟨u, hf, ⟨dep, hdep, hpath⟩, hnone⟩ := ih rfl
    exact ⟨u, hf, ⟨name, .head _, .head ⟨e, he, hdep⟩ hpath⟩, hnone⟩
  | done _ _ _ _ _ ihrest =>
    obtain ⟨u, hf, hneeded, hnone⟩ := ihrest hr
    exact ⟨u, hf, hneeded.mono (List.subset_cons_self _ _), hnone⟩

/-- How many declared functions a walk has not met. -/
def unmet (functions : Table String FunctionEntry) (w : Walk) : Nat :=
  (functions.keys.toFinset \ w.met.toFinset).card

theorem unmet_meet (hnew : name ∉ w.met) (hname : name ∈ functions.keys) :
    unmet functions { w with met := name :: w.met } < unmet functions w := by
  apply Finset.card_lt_card
  rw [List.toFinset_cons, Finset.ssubset_iff_of_subset
    (Finset.sdiff_subset_sdiff le_rfl (Finset.subset_insert _ _))]
  exact ⟨name, by simp [hname, hnew], by simp⟩

theorem Walk.Continues.unmet_le (h : w.Continues functions names w' new) :
    unmet functions w' ≤ unmet functions w := by
  apply Finset.card_le_card
  refine Finset.sdiff_subset_sdiff le_rfl fun n hn => ?_
  rw [List.mem_toFinset] at hn ⊢
  exact (h.mem_met n).mpr (.inl hn)

/-- A bound above the number of functions that are not met yet does not cut a walk off. -/
theorem walks_foldlM {depth : Nat} (h : unmet functions w < depth) :
    Walks functions names w (names.foldlM (visit functions depth) w) := by
  induction depth generalizing names w with
  | zero => exact absurd h (Nat.not_lt_zero _)
  | succ depth ih =>
    induction names generalizing w with
    | nil => exact .nil
    | cons name names ihnames =>
      rw [List.foldlM_cons, visit]
      by_cases hmet : name ∈ w.met
      · rw [if_pos (List.contains_iff_mem.mpr hmet)]
        exact .met hmet (ihnames h)
      rw [if_neg fun hc => hmet (List.contains_iff_mem.mp hc)]
      cases he : functions.get? name with
      | none => exact .unknown hmet he
      | some e =>
        have hless := unmet_meet hmet (Table.mem_keys_iff.mpr ⟨e, he⟩)
        have hcallees : Walks functions e.deps { w with met := name :: w.met }
            (e.deps.foldlM (visit functions depth) { w with met := name :: w.met }) :=
          ih (Nat.lt_of_lt_of_le hless (Nat.lt_succ_iff.mp h))
        dsimp only
        cases hdeps : e.deps.foldlM (visit functions depth) { w with met := name :: w.met } with
        | error f => exact .failed hmet he (hdeps ▸ hcallees)
        | ok w' =>
          rw [hdeps] at hcallees
          obtain ⟨new, hnew⟩ := hcallees.exists_continues
          refine .done hmet he hcallees (ihnames ?_)
          exact Nat.lt_of_le_of_lt (hnew.visit hmet he).unmet_le h

end Library

end OpcodeConformance
