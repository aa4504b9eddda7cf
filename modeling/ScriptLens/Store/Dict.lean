namespace ScriptLens

structure Dict (α : Type) where
  entries : List (String × α)
  ascending : (entries.map (·.1)).Pairwise (· < ·)
deriving DecidableEq

namespace Dict

variable {α : Type}

def empty : Dict α := ⟨[], .nil⟩

def keys (d : Dict α) : List String :=
  d.entries.map (·.1)

def values (d : Dict α) : List α :=
  d.entries.map (·.2)

def size (d : Dict α) : Nat :=
  d.entries.length

def isEmpty (d : Dict α) : Bool :=
  d.entries.isEmpty

def get? (d : Dict α) (key : String) : Option α :=
  d.entries.lookup key

def contains (d : Dict α) (key : String) : Bool :=
  (d.get? key).isSome

def insertEntry (key : String) (a : α) : List (String × α) → List (String × α)
  | [] => [(key, a)]
  | (k, b) :: rest =>
    if key < k then (key, a) :: (k, b) :: rest
    else if k = key then (key, a) :: rest
    else (k, b) :: insertEntry key a rest

theorem mem_keys_insertEntry {key k : String} {a : α} {entries : List (String × α)}
    (h : k ∈ (insertEntry key a entries).map (·.1)) : k = key ∨ k ∈ entries.map (·.1) := by
  induction entries with
  | nil => simpa [insertEntry] using h
  | cons e rest ih =>
    obtain ⟨k', b⟩ := e
    simp only [insertEntry] at h
    split at h
    · simpa using h
    · split at h
      · simp only [List.map_cons, List.mem_cons] at h ⊢
        exact h.imp id Or.inr
      · simp only [List.map_cons, List.mem_cons] at h ⊢
        rcases h with h | h
        · exact .inr (.inl h)
        · exact (ih h).imp id .inr

theorem ascending_insertEntry (key : String) (a : α) {entries : List (String × α)}
    (h : (entries.map (·.1)).Pairwise (· < ·)) :
    ((insertEntry key a entries).map (·.1)).Pairwise (· < ·) := by
  induction entries with
  | nil => simp [insertEntry]
  | cons e rest ih =>
    obtain ⟨k, b⟩ := e
    obtain ⟨above, tail⟩ := List.pairwise_cons.1 h
    simp only [insertEntry]
    split
    · next lt =>
      refine List.pairwise_cons.2 ⟨fun x hx => ?_, h⟩
      rcases List.mem_cons.1 hx with rfl | hx
      · exact lt
      · exact String.lt_trans lt (above x hx)
    · next nlt =>
      split
      · next eq => exact List.pairwise_cons.2 ⟨fun x hx => eq ▸ above x hx, tail⟩
      · next ne =>
        refine List.pairwise_cons.2 ⟨fun x hx => ?_, ih tail⟩
        rcases mem_keys_insertEntry hx with rfl | hx
        · exact Std.lt_of_le_of_ne nlt ne
        · exact above x hx

def insert (d : Dict α) (key : String) (a : α) : Dict α :=
  ⟨insertEntry key a d.entries, ascending_insertEntry key a d.ascending⟩

theorem ascending_filter (p : String × α → Bool) {entries : List (String × α)}
    (h : (entries.map (·.1)).Pairwise (· < ·)) :
    ((entries.filter p).map (·.1)).Pairwise (· < ·) :=
  h.sublist (List.filter_sublist.map _)

def erase (d : Dict α) (key : String) : Dict α :=
  ⟨d.entries.filter (·.1 != key), ascending_filter _ d.ascending⟩

/-- Of entries with one key the last stays. -/
def ofList (entries : List (String × α)) : Dict α :=
  entries.foldl (fun d (key, a) => d.insert key a) empty

def map {β : Type} (f : α → β) (d : Dict α) : Dict β :=
  ⟨d.entries.map fun (k, a) => (k, f a), by simpa [Function.comp_def] using d.ascending⟩

end Dict

abbrev NameSet := Dict Unit

namespace NameSet

def ofNames (names : List String) : NameSet :=
  Dict.ofList (names.map (·, ()))

end NameSet

end ScriptLens
