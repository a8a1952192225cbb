namespace OpcodeConformance

namespace Table

variable {κ α : Type} [Ord κ]

def Ascending (entries : List (κ × α)) : Prop :=
  entries.Pairwise fun a b => compare a.1 b.1 = .lt

def insertEntry (k : κ) (v : α) : List (κ × α) → List (κ × α)
  | [] => [(k, v)]
  | (a, x) :: rest =>
    match compare k a with
    | .lt => (k, v) :: (a, x) :: rest
    | .eq => (k, v) :: rest
    | .gt => (a, x) :: insertEntry k v rest

theorem mem_insertEntry {k : κ} {v : α} {e : κ × α} {entries : List (κ × α)}
    (h : e ∈ insertEntry k v entries) : e = (k, v) ∨ e ∈ entries := by
  induction entries with
  | nil => exact .inl (List.mem_singleton.1 h)
  | cons x rest ih =>
    obtain ⟨a, y⟩ := x
    simp only [insertEntry] at h
    split at h
    · exact List.mem_cons.1 h
    · rcases List.mem_cons.1 h with rfl | h
      · exact .inl rfl
      · exact .inr (.tail _ h)
    · rcases List.mem_cons.1 h with rfl | h
      · exact .inr (.head _)
      · exact (ih h).imp_right (.tail _)

theorem Ascending.insertEntry [Std.TransOrd κ] [Std.LawfulEqOrd κ] (k : κ) (v : α)
    {entries : List (κ × α)} (h : Ascending entries) : Ascending (insertEntry k v entries) := by
  induction entries with
  | nil => exact List.pairwise_singleton _ _
  | cons x rest ih =>
    obtain ⟨a, y⟩ := x
    obtain ⟨ha, hr⟩ := List.pairwise_cons.1 h
    simp only [Table.insertEntry]
    split
    · next hk =>
      refine List.pairwise_cons.2 ⟨fun e he => ?_, h⟩
      rcases List.mem_cons.1 he with rfl | he
      · exact hk
      · exact Std.TransCmp.lt_trans hk (ha e he)
    · next hk =>
      refine List.pairwise_cons.2 ⟨fun e he => ?_, hr⟩
      rw [Std.LawfulEqCmp.eq_of_compare hk]
      exact ha e he
    · next hk =>
      refine List.pairwise_cons.2 ⟨fun e he => ?_, ih hr⟩
      rcases mem_insertEntry he with rfl | he
      · exact Std.OrientedCmp.gt_iff_lt.1 hk
      · exact ha e he

end Table

/-- A finite map that lists its entries in ascending order of the keys. -/
structure Table (κ α : Type) [Ord κ] where
  entries : List (κ × α)
  ascending : Table.Ascending entries

namespace Table

variable {κ α : Type} [Ord κ]

def empty : Table κ α := ⟨[], .nil⟩

instance : Inhabited (Table κ α) := ⟨empty⟩

instance [DecidableEq κ] [DecidableEq α] : DecidableEq (Table κ α) := fun a b =>
  decidable_of_iff (a.entries = b.entries) (by cases a; cases b; simp)

def get? [DecidableEq κ] (t : Table κ α) (k : κ) : Option α := t.entries.lookup k

def contains [DecidableEq κ] (t : Table κ α) (k : κ) : Bool := (t.get? k).isSome

def keys (t : Table κ α) : List κ := t.entries.map (·.1)

def insert [Std.TransOrd κ] [Std.LawfulEqOrd κ] (t : Table κ α) (k : κ) (v : α) : Table κ α :=
  ⟨insertEntry k v t.entries, t.ascending.insertEntry k v⟩

/-- The table of the pairs of a list. Of several pairs with one key the last counts. -/
def ofList [Std.TransOrd κ] [Std.LawfulEqOrd κ] (pairs : List (κ × α)) : Table κ α :=
  pairs.foldl (fun t p => t.insert p.1 p.2) empty

end Table

end OpcodeConformance
