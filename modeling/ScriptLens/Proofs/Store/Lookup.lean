import Mathlib.Data.List.Forall2

namespace ScriptLens.Lookup

variable {α β : Type}

theorem cons_ne {k k' : String} (h : k ≠ k') (a : α) (rest : List (String × α)) :
    ((k', a) :: rest).lookup k = rest.lookup k := by
  rw [List.lookup_cons, beq_eq_false_iff_ne.2 h]

theorem isSome_iff (entries : List (String × α)) (k : String) :
    (entries.lookup k).isSome ↔ k ∈ entries.map (·.1) := by
  simp only [List.lookup_isSome_iff, List.mem_map]
  constructor
  · rintro ⟨e, he, hk⟩
    exact ⟨e, he, (eq_of_beq hk).symm⟩
  · rintro ⟨e, he, hk⟩
    exact ⟨e, he, by simp [hk]⟩

theorem filter_ne (entries : List (String × α)) (key k : String) :
    (entries.filter (·.1 != key)).lookup k = if k = key then none else entries.lookup k := by
  induction entries with
  | nil => simp
  | cons e rest ih =>
      obtain ⟨k', a⟩ := e
      by_cases hk' : k' = key
      · subst hk'
        rw [List.filter_cons_of_neg (by simp), ih]
        by_cases hk : k = k'
        · simp [hk]
        · simp [hk, cons_ne]
      · rw [List.filter_cons_of_pos (by simpa using hk')]
        by_cases hk : k = k'
        · subst hk
          simp [hk']
        · rw [cons_ne hk, cons_ne hk, ih]

theorem map_value (f : α → β) (entries : List (String × α)) (k : String) :
    (entries.map fun e => (e.1, f e.2)).lookup k = (entries.lookup k).map f := by
  induction entries with
  | nil => rfl
  | cons e rest ih =>
      obtain ⟨k', a⟩ := e
      by_cases hk : k = k'
      · subst hk
        simp
      · rw [List.map_cons, cons_ne hk, cons_ne hk, ih]

theorem mem_iff {entries : List (String × α)} (h : (entries.map (·.1)).Nodup) (k : String) (a : α) :
    (k, a) ∈ entries ↔ entries.lookup k = some a := by
  induction entries with
  | nil => simp
  | cons e rest ih =>
      obtain ⟨k', b⟩ := e
      obtain ⟨hk', hrest⟩ := List.nodup_cons.1 h
      by_cases hk : k = k'
      · subst hk
        have habsent : (k, a) ∉ rest := fun hmem => hk' (List.mem_map.2 ⟨_, hmem, rfl⟩)
        simp [habsent, eq_comm]
      · rw [cons_ne hk, ← ih hrest]
        simp [hk]

theorem ext_lookup {xs ys : List (String × α)} (hx : (xs.map (·.1)).Nodup)
    (hkeys : xs.map (·.1) = ys.map (·.1)) (hget : ∀ k, xs.lookup k = ys.lookup k) : xs = ys := by
  induction xs generalizing ys with
  | nil => exact (List.map_eq_nil_iff.1 hkeys.symm).symm
  | cons x xs ih =>
      cases ys with
      | nil => simp at hkeys
      | cons y ys =>
          obtain ⟨k, a⟩ := x
          obtain ⟨k', b⟩ := y
          obtain ⟨hk, htail⟩ : k = k' ∧ xs.map (·.1) = ys.map (·.1) := by simpa using hkeys
          subst hk
          obtain ⟨hfresh, hxs⟩ := List.nodup_cons.1 hx
          have hab : a = b := by simpa using hget k
          have hrest (j : String) : xs.lookup j = ys.lookup j := by
            by_cases hj : j = k
            · subst hj
              have hx' : ¬ (xs.lookup j).isSome := fun hs => hfresh ((isSome_iff xs j).1 hs)
              have hy' : ¬ (ys.lookup j).isSome := fun hs =>
                hfresh (htail ▸ (isSome_iff ys j).1 hs)
              simp only [Option.not_isSome_iff_eq_none] at hx' hy'
              rw [hx', hy']
            · have hj' := hget j
              rwa [cons_ne hj, cons_ne hj] at hj'
          rw [hab, ih hxs htail hrest]

theorem mem_of_eq_some {entries : List (String × α)} {k : String} {a : α}
    (h : entries.lookup k = some a) : (k, a) ∈ entries := by
  obtain ⟨before, after, rfl, -⟩ := List.lookup_eq_some_iff.1 h
  exact List.mem_append_right _ List.mem_cons_self

theorem perm {xs ys : List (String × α)} (hperm : xs.Perm ys) (hx : (xs.map (·.1)).Nodup)
    (k : String) : xs.lookup k = ys.lookup k := by
  have hy : (ys.map (·.1)).Nodup := (hperm.map _).nodup_iff.1 hx
  apply Option.ext
  intro a
  rw [← mem_iff hx, ← mem_iff hy, hperm.mem_iff]

/-- Where the values of two lists are related key by key, so are the values that are found. -/
theorem rel {R : String → α → β → Prop} {xs : List (String × α)} {ys : List (String × β)}
    (h : xs.Forall₂ (fun x y => x.1 = y.1 ∧ R x.1 x.2 y.2) ys) (k : String) :
    Option.Rel (R k) (xs.lookup k) (ys.lookup k) := by
  induction h with
  | nil => exact .none
  | @cons x y xs ys hxy _ ih =>
      obtain ⟨kx, a⟩ := x
      obtain ⟨ky, b⟩ := y
      obtain ⟨hkeys, hab⟩ := hxy
      change kx = ky at hkeys
      subst hkeys
      by_cases hk : k = kx
      · subst hk
        rw [List.lookup_cons_self, List.lookup_cons_self]
        exact .some hab
      · rw [cons_ne hk, cons_ne hk]
        exact ih

end ScriptLens.Lookup
