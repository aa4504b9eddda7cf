import Mathlib.Data.List.Perm.Subperm
import ScriptLens.Proofs.Store.Lookup
import ScriptLens.Store.Table

namespace ScriptLens.Table

variable {α β : Type}

theorem lookup_insertEntry (key : String) (a : α) (entries : List (String × α)) (k : String) :
    (insertEntry key a entries).lookup k = if k = key then some a else entries.lookup k := by
  induction entries with
  | nil =>
      by_cases hk : k = key
      · simp [insertEntry, hk]
      · simp [insertEntry, hk, Lookup.cons_ne]
  | cons e rest ih =>
      obtain ⟨k', b⟩ := e
      by_cases he : k' = key
      · subst he
        by_cases hk : k = k'
        · simp [insertEntry, hk]
        · simp [insertEntry, hk, Lookup.cons_ne]
      · rw [insertEntry, if_neg he]
        by_cases hk : k = k'
        · subst hk
          simp [he]
        · rw [Lookup.cons_ne hk, Lookup.cons_ne hk, ih]

@[simp] theorem get?_insert (t : Table α) (key : String) (a : α) (k : String) :
    (t.insert key a).get? k = if k = key then some a else t.get? k :=
  lookup_insertEntry key a t.entries k

@[simp] theorem get?_erase (t : Table α) (key k : String) :
    (t.erase key).get? k = if k = key then none else t.get? k :=
  Lookup.filter_ne t.entries key k

theorem get?_of_erase {t : Table α} {key k : String} {a : α}
    (h : (t.erase key).get? k = some a) : k ≠ key ∧ t.get? k = some a := by
  rw [get?_erase] at h
  by_cases hk : k = key
  · rw [if_pos hk] at h
    cases h
  · rw [if_neg hk] at h
    exact ⟨hk, h⟩

@[simp] theorem get?_map (f : α → β) (t : Table α) (k : String) :
    (t.map f).get? k = (t.get? k).map f :=
  Lookup.map_value f t.entries k

theorem mem_keys_iff (t : Table α) (k : String) : k ∈ t.keys ↔ (t.get? k).isSome :=
  (Lookup.isSome_iff t.entries k).symm

theorem mem_keys_of_get? {t : Table α} {k : String} {a : α} (h : t.get? k = some a) :
    k ∈ t.keys := by
  rw [mem_keys_iff, h]
  rfl

theorem mem_entries_iff (t : Table α) (k : String) (a : α) :
    (k, a) ∈ t.entries ↔ t.get? k = some a :=
  Lookup.mem_iff t.distinct k a

@[simp] theorem keys_insert (t : Table α) (key : String) (a : α) :
    (t.insert key a).keys = if key ∈ t.keys then t.keys else t.keys ++ [key] :=
  keys_insertEntry key a t.entries

@[simp] theorem keys_erase (t : Table α) (key : String) :
    (t.erase key).keys = t.keys.filter (· != key) := by
  simp only [keys, erase, List.filter_map]
  rfl

@[simp] theorem keys_map (f : α → β) (t : Table α) : (t.map f).keys = t.keys := by
  simp [keys, map, Function.comp_def]

theorem ext_get? {t u : Table α} (hkeys : t.keys = u.keys) (hget : ∀ k, t.get? k = u.get? k) :
    t = u := by
  have hentries := Lookup.ext_lookup t.distinct hkeys hget
  cases t
  cases u
  subst hentries
  rfl

theorem entries_perm {t u : Table α} (h : ∀ k, t.get? k = u.get? k) :
    t.entries.Perm u.entries := by
  have hnodup (t : Table α) : t.entries.Nodup :=
    List.Pairwise.of_map (·.1) (fun _ _ hne heq => hne (congrArg Prod.fst heq)) t.distinct
  refine (List.perm_ext_iff_of_nodup (hnodup t) (hnodup u)).2 fun e => ?_
  rw [mem_entries_iff, mem_entries_iff, h]

theorem size_le_of_isSome {t u : Table α} (h : ∀ k, (t.get? k).isSome → (u.get? k).isSome) :
    t.size ≤ u.size := by
  have hsubset : t.keys ⊆ u.keys := fun k hk =>
    (u.mem_keys_iff k).2 (h k ((t.mem_keys_iff k).1 hk))
  simpa [keys, size] using (List.subperm_of_subset t.distinct hsubset).length_le

theorem map_insert (f : α → β) (t : Table α) (key : String) (a : α) :
    (t.insert key a).map f = (t.map f).insert key (f a) := by
  apply ext_get?
  · simp
  · intro k
    by_cases hk : k = key <;> simp [hk]

theorem map_erase (f : α → β) (t : Table α) (key : String) :
    (t.erase key).map f = (t.map f).erase key := by
  apply ext_get?
  · simp
  · intro k
    by_cases hk : k = key <;> simp [hk]

theorem erase_insert (t : Table α) (key : String) (a : α) :
    (t.insert key a).erase key = t.erase key := by
  apply ext_get?
  · rw [keys_erase, keys_erase, keys_insert]
    split <;> simp
  · intro k
    by_cases hk : k = key <;> simp [hk]

theorem erase_of_get? {t : Table α} {key : String} (h : t.get? key = none) : t.erase key = t := by
  apply ext_get?
  · have habsent : key ∉ t.keys := by
      rw [mem_keys_iff, h]
      simp
    rw [keys_erase, List.filter_eq_self]
    intro k hk
    have hne : k ≠ key := fun heq => habsent (heq ▸ hk)
    simp [hne]
  · intro k
    by_cases hk : k = key <;> simp [hk, h]

theorem insert_of_get? {t : Table α} {key : String} {a : α} (h : t.get? key = some a) :
    t.insert key a = t := by
  apply ext_get?
  · simp [mem_keys_of_get? h]
  · intro k
    by_cases hk : k = key <;> simp [hk, h]

end ScriptLens.Table
