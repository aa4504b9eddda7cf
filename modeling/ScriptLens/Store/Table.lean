namespace ScriptLens

structure Table (α : Type) where
  entries : List (String × α)
  distinct : (entries.map (·.1)).Nodup
deriving DecidableEq

namespace Table

variable {α : Type}

def empty : Table α := ⟨[], .nil⟩

def keys (t : Table α) : List String :=
  t.entries.map (·.1)

def size (t : Table α) : Nat :=
  t.entries.length

def get? (t : Table α) (key : String) : Option α :=
  t.entries.lookup key

def contains (t : Table α) (key : String) : Bool :=
  (t.get? key).isSome

def insertEntry (key : String) (a : α) : List (String × α) → List (String × α)
  | [] => [(key, a)]
  | (k, b) :: rest => if k = key then (k, a) :: rest else (k, b) :: insertEntry key a rest

theorem keys_insertEntry (key : String) (a : α) (entries : List (String × α)) :
    (insertEntry key a entries).map (·.1) =
      if key ∈ entries.map (·.1) then entries.map (·.1) else entries.map (·.1) ++ [key] := by
  induction entries with
  | nil => simp [insertEntry]
  | cons e rest ih =>
    obtain ⟨k, b⟩ := e
    simp only [insertEntry]
    split
    · next eq => simp [eq]
    · next ne =>
      have ne' : key ≠ k := fun h => ne h.symm
      simp only [List.map_cons, ih, List.mem_cons, ne', false_or]
      split <;> rfl

theorem distinct_insertEntry (key : String) (a : α) {entries : List (String × α)}
    (h : (entries.map (·.1)).Nodup) : ((insertEntry key a entries).map (·.1)).Nodup := by
  rw [keys_insertEntry]
  split
  · exact h
  · next absent =>
    refine List.nodup_append.2 ⟨h, by simp, ?_⟩
    intro k hk k' hk' eq
    rw [List.mem_singleton.1 hk'] at eq
    exact absent (eq ▸ hk)

def insert (t : Table α) (key : String) (a : α) : Table α :=
  ⟨insertEntry key a t.entries, distinct_insertEntry key a t.distinct⟩

def erase (t : Table α) (key : String) : Table α :=
  ⟨t.entries.filter (·.1 != key), t.distinct.sublist (List.filter_sublist.map _)⟩

def map {β : Type} (f : α → β) (t : Table α) : Table β :=
  ⟨t.entries.map fun (k, a) => (k, f a), by simpa [Function.comp_def] using t.distinct⟩

end Table

end ScriptLens
