import ScriptLens.Proofs.Store.Lookup
import ScriptLens.Store.Dict

namespace ScriptLens.Dict

variable {α β : Type}

theorem distinct (d : Dict α) : (d.entries.map (·.1)).Nodup := by
  refine d.ascending.imp ?_
  intro a b hlt heq
  exact String.lt_irrefl b (heq ▸ hlt)

@[simp] theorem get?_empty (k : String) : (empty : Dict α).get? k = none := rfl

theorem lookup_insertEntry (key : String) (a : α) (entries : List (String × α)) (k : String) :
    (insertEntry key a entries).lookup k = if k = key then some a else entries.lookup k := by
  induction entries with
  | nil =>
      by_cases hk : k = key
      · simp [insertEntry, hk]
      · simp [insertEntry, hk, Lookup.cons_ne]
  | cons e rest ih =>
      obtain ⟨k', b⟩ := e
      simp only [insertEntry]
      split
      · by_cases hk : k = key
        · simp [hk]
        · simp [hk, Lookup.cons_ne]
      · split
        · next heq =>
          subst heq
          by_cases hk : k = k'
          · simp [hk]
          · simp [hk, Lookup.cons_ne]
        · next hne =>
          by_cases hk : k = k'
          · subst hk
            simp [hne]
          · rw [Lookup.cons_ne hk, Lookup.cons_ne hk, ih]

@[simp] theorem get?_insert (d : Dict α) (key : String) (a : α) (k : String) :
    (d.insert key a).get? k = if k = key then some a else d.get? k :=
  lookup_insertEntry key a d.entries k

@[simp] theorem get?_erase (d : Dict α) (key k : String) :
    (d.erase key).get? k = if k = key then none else d.get? k :=
  Lookup.filter_ne d.entries key k

@[simp] theorem get?_map (f : α → β) (d : Dict α) (k : String) :
    (d.map f).get? k = (d.get? k).map f :=
  Lookup.map_value f d.entries k

@[simp] theorem keys_map (f : α → β) (d : Dict α) : (d.map f).keys = d.keys := by
  simp [keys, map, Function.comp_def]

theorem mem_keys_iff (d : Dict α) (k : String) : k ∈ d.keys ↔ (d.get? k).isSome :=
  (Lookup.isSome_iff d.entries k).symm

theorem mem_keys_insert (d : Dict α) (key : String) (a : α) (k : String) :
    k ∈ (d.insert key a).keys ↔ k = key ∨ k ∈ d.keys := by
  rw [mem_keys_iff, get?_insert, mem_keys_iff]
  by_cases hk : k = key <;> simp [hk]

theorem mem_entries_iff (d : Dict α) (k : String) (a : α) :
    (k, a) ∈ d.entries ↔ d.get? k = some a :=
  Lookup.mem_iff d.distinct k a

theorem ext_get? {d e : Dict α} (h : ∀ k, d.get? k = e.get? k) : d = e := by
  have hkeys : d.keys = e.keys := by
    have hperm : d.keys.Perm e.keys := by
      apply (List.perm_ext_iff_of_nodup d.distinct e.distinct).2
      intro k
      change k ∈ d.keys ↔ k ∈ e.keys
      rw [mem_keys_iff, mem_keys_iff, h k]
    apply hperm.eq_of_pairwise ?_ d.ascending e.ascending
    intro a b _ _ hab hba
    exact absurd (String.lt_trans hab hba) (String.lt_irrefl a)
  have hentries := Lookup.ext_lookup d.distinct hkeys h
  cases d
  cases e
  subst hentries
  rfl

theorem get?_foldl_insert (a : α) (names : List String) (d : Dict α) (k : String) :
    ((names.map (·, a)).foldl (fun d (key, a) => d.insert key a) d).get? k =
      if k ∈ names then some a else d.get? k := by
  induction names generalizing d with
  | nil => simp
  | cons name names ih =>
      rw [List.map_cons, List.foldl_cons, ih]
      by_cases hk : k ∈ names
      · simp [hk]
      · by_cases hname : k = name <;> simp [hk, hname]

theorem get?_ofList_const (a : α) (names : List String) (k : String) :
    (ofList (names.map (·, a))).get? k = if k ∈ names then some a else none :=
  get?_foldl_insert a names empty k

theorem get?_foldl_distinct {entries : List (String × α)} (h : (entries.map (·.1)).Nodup)
    (d : Dict α) (k : String) :
    (entries.foldl (fun d (key, a) => d.insert key a) d).get? k =
      (entries.lookup k).or (d.get? k) := by
  induction entries generalizing d with
  | nil => rfl
  | cons e entries ih =>
      obtain ⟨key, a⟩ := e
      obtain ⟨hkey, hrest⟩ := List.nodup_cons.1 h
      rw [List.foldl_cons, ih hrest, get?_insert]
      by_cases hk : k = key
      · subst hk
        have habsent : entries.lookup k = none := by
          rw [← Option.not_isSome_iff_eq_none, Lookup.isSome_iff]
          exact hkey
        simp [habsent]
      · rw [if_neg hk, Lookup.cons_ne hk]

/-- The order of entries with distinct keys is of no account. -/
theorem ofList_perm {xs ys : List (String × α)} (hperm : xs.Perm ys) (hx : (xs.map (·.1)).Nodup) :
    ofList xs = ofList ys := by
  have hy : (ys.map (·.1)).Nodup := (hperm.map _).nodup_iff.1 hx
  apply ext_get?
  intro k
  rw [ofList, ofList, get?_foldl_distinct hx, get?_foldl_distinct hy, Lookup.perm hperm hx]

theorem mem_of_get?_foldl {entries : List (String × α)} {d : Dict α} {k : String} {a : α}
    (h : (entries.foldl (fun d (key, a) => d.insert key a) d).get? k = some a) :
    (k, a) ∈ entries ∨ d.get? k = some a := by
  induction entries generalizing d with
  | nil => exact .inr h
  | cons e entries ih =>
      obtain ⟨key, b⟩ := e
      rcases ih h with hmem | hget
      · exact .inl (List.mem_cons_of_mem _ hmem)
      · rw [get?_insert] at hget
        split at hget
        · next hk =>
            cases hget
            exact .inl (hk ▸ List.mem_cons_self)
        · exact .inr hget

theorem mem_of_get?_ofList {entries : List (String × α)} {k : String} {a : α}
    (h : (ofList entries).get? k = some a) : (k, a) ∈ entries := by
  rcases mem_of_get?_foldl h with hmem | hget
  · exact hmem
  · cases hget

theorem ofList_entries (d : Dict α) : ofList d.entries = d := by
  apply ext_get?
  intro k
  rw [ofList, get?_foldl_distinct d.distinct, get?_empty, Option.or_none]
  rfl

end ScriptLens.Dict
