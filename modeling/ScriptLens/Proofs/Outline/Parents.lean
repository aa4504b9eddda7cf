import ScriptLens.Proofs.Outline.Forest

namespace ScriptLens.Outline

mutual

/-- The entries of a branch, each with the position of its parent. The branch itself is at position
`pos`, and its own parent at position `parent`. -/
def Branch.placed (parent : Option Nat) (pos : Nat) : Branch → List (Entry × Option Nat)
  | .mk entry children => (entry, parent) :: placedAll (some pos) (pos + 1) children

def Branch.placedAll (parent : Option Nat) (pos : Nat) : List Branch → List (Entry × Option Nat)
  | [] => []
  | b :: bs => b.placed parent pos ++ placedAll parent (pos + b.flatten.length) bs

end

/-- Of the entries before a position for which `p` holds the last is at position `j`. -/
structure NearestBefore (entries : List Entry) (p : Entry → Prop) (i j : Nat) : Prop where
  before : j < i
  holds : ∃ e, entries[j]? = some e ∧ p e
  nearest : ∀ k e, j < k → k < i → entries[k]? = some e → ¬ p e

structure Stepwise (entries : List Entry) : Prop where
  head : ∀ e ∈ entries.head?, e.indent = 0
  chain : entries.IsChain fun a b => b.indent.toNat ≤ a.indent.toNat + 1

section nearest

variable {entries more : List Entry} {p : Entry → Prop} {i j : Nat}

theorem NearestBefore.append (h : NearestBefore entries p i j) (hi : i < entries.length)
    (more : List Entry) : NearestBefore (entries ++ more) p i j := by
  obtain ⟨e, he, hp⟩ := h.holds
  refine ⟨h.before, ⟨e, ?_, hp⟩, ?_⟩
  · rw [List.getElem?_append_left (Nat.lt_trans h.before hi), he]
  · intro k e hjk hki hk
    rw [List.getElem?_append_left (Nat.lt_trans hki hi)] at hk
    exact h.nearest k e hjk hki hk

theorem NearestBefore.after (h : NearestBefore entries p i j) (more : List Entry) :
    NearestBefore (more ++ entries) p (more.length + i) (more.length + j) := by
  obtain ⟨e, he, hp⟩ := h.holds
  refine ⟨Nat.add_lt_add_left h.before _, ⟨e, ?_, hp⟩, ?_⟩
  · rw [List.getElem?_append_right (Nat.le_add_right _ _), Nat.add_sub_cancel_left, he]
  · intro k e hjk hki hk
    rw [List.getElem?_append_right (by omega)] at hk
    exact h.nearest (k - more.length) e (by omega) (by omega) hk

theorem NearestBefore.unique {j' : Nat} (h : NearestBefore entries p i j)
    (h' : NearestBefore entries p i j') : j = j' := by
  obtain ⟨e, he, hp⟩ := h.holds
  obtain ⟨e', he', hp'⟩ := h'.holds
  rcases Nat.lt_trichotomy j j' with hlt | heq | hgt
  · exact absurd hp' (h.nearest j' e' hlt h'.before he')
  · exact heq
  · exact absurd hp (h'.nearest j e hgt h.before he)

end nearest

mutual

theorem map_fst_placed (parent : Option Nat) (pos : Nat) :
    (b : Branch) → (b.placed parent pos).map (·.1) = b.flatten
  | .mk entry children => by
      rw [Branch.placed, Branch.flatten, List.map_cons, map_fst_placedAll]

theorem map_fst_placedAll (parent : Option Nat) (pos : Nat) :
    (bs : List Branch) → (Branch.placedAll parent pos bs).map (·.1) = Branch.flattenAll bs
  | [] => rfl
  | b :: bs => by
      rw [Branch.placedAll, Branch.flattenAll, List.map_append, map_fst_placed, map_fst_placedAll]

end

theorem length_placedAll_forest (parent : Option Nat) (pos : Nat) (entries : List Entry) :
    (Branch.placedAll parent pos (forest entries)).length = entries.length := by
  rw [← List.length_map (·.1), map_fst_placedAll, flatten_forest]

/-- The parent of the entry at position `i` of a list that starts at position `pos`: the nearest
entry before it that is indented less, or, if there is none, the parent of the whole list. -/
inductive Owned (entries : List Entry) (parent : Option Nat) (pos i : Nat) (x : Entry) :
    Option Nat → Prop
  | nearest (j : Nat) (h : NearestBefore entries (·.indent < x.indent) i j) :
      Owned entries parent pos i x (some (pos + j))
  | outer (h : ∀ j e, j < i → entries[j]? = some e → x.indent ≤ e.indent) :
      Owned entries parent pos i x parent

section owned

variable {e x : Entry} {below after : List Entry} {parent owner : Option Nat} {pos i : Nat}

theorem Owned.of_below (h : Owned below (some pos) (pos + 1) i x owner) (hi : i < below.length)
    (hx : e.indent < x.indent) (after : List Entry) :
    Owned (e :: (below ++ after)) parent pos (i + 1) x owner := by
  cases h with
  | nearest j h =>
      have hnearest := (h.append hi after).after [e]
      rw [List.length_singleton, Nat.add_comm 1 i] at hnearest
      rw [Nat.add_assoc]
      exact .nearest (1 + j) hnearest
  | outer h =>
      refine .nearest 0 ⟨Nat.succ_pos i, ⟨e, rfl, hx⟩, ?_⟩
      intro k y hk hki hy
      obtain ⟨k, rfl⟩ := Nat.exists_eq_succ_of_ne_zero hk.ne'
      rw [List.getElem?_cons_succ, List.getElem?_append_left (by omega)] at hy
      exact UInt64.not_lt.2 (h k y (Nat.lt_of_succ_lt_succ hki) hy)

theorem Owned.of_after (h : Owned after parent (pos + (below.length + 1)) i x owner)
    (hx : after[i]? = some x) (hbelow : ∀ y ∈ below, e.indent < y.indent)
    (hafter : ∀ y, after[0]? = some y → y.indent ≤ e.indent) :
    Owned (e :: (below ++ after)) parent pos (below.length + 1 + i) x owner := by
  cases h with
  | nearest j h =>
      have hnearest := h.after (e :: below)
      rw [List.length_cons] at hnearest
      rw [Nat.add_assoc pos]
      exact .nearest (below.length + 1 + j) hnearest
  | outer h =>
      -- the list goes on with an entry that is indented no more than `e`, and `x` no more than that
      have hxe : x.indent ≤ e.indent := by
        obtain ⟨y, hy⟩ : ∃ y, after[0]? = some y := by
          cases after with
          | nil => cases hx
          | cons y rest => exact ⟨y, rfl⟩
        cases i with
        | zero => exact hafter x hx
        | succ i => exact UInt64.le_trans (h 0 y (Nat.succ_pos i) hy) (hafter y hy)
      refine .outer ?_
      intro j y hj hy
      rw [← List.cons_append] at hy
      by_cases hjb : j < (e :: below).length
      · rw [List.getElem?_append_left hjb] at hy
        rcases List.mem_cons.1 (List.mem_of_getElem? hy) with rfl | hmem
        · exact hxe
        · exact UInt64.le_trans hxe (UInt64.le_of_lt (hbelow y hmem))
      · rw [List.length_cons] at hjb
        rw [List.getElem?_append_right (by simpa using hjb), List.length_cons] at hy
        exact h (j - (below.length + 1)) y (by omega) hy

theorem Owned.eq_some_iff {entries : List Entry} (h : Owned entries none 0 i x owner) (j : Nat) :
    owner = some j ↔ NearestBefore entries (·.indent < x.indent) i j := by
  cases h with
  | nearest j' h =>
      rw [Nat.zero_add, Option.some.injEq]
      exact ⟨fun heq => heq ▸ h, h.unique⟩
  | outer h =>
      refine ⟨fun heq => (nomatch heq), fun hnearest => ?_⟩
      obtain ⟨e, he, hlt⟩ := hnearest.holds
      exact absurd hlt (UInt64.not_lt.2 (h j e hnearest.before he))

theorem Owned.eq_none_iff {entries : List Entry} (h : Owned entries none 0 i x owner) :
    owner = none ↔ ∀ j e, j < i → entries[j]? = some e → x.indent ≤ e.indent := by
  cases h with
  | nearest j h =>
      refine ⟨fun heq => (nomatch heq), fun hle => ?_⟩
      obtain ⟨e, he, hlt⟩ := h.holds
      exact absurd hlt (UInt64.not_lt.2 (hle j e h.before he))
  | outer h => exact ⟨fun _ => h, fun _ => rfl⟩

end owned

theorem placedAll_mk (parent : Option Nat) (pos : Nat) (e : Entry) (below after : List Entry) :
    Branch.placedAll parent pos (.mk e (forest below) :: forest after) =
      (e, parent) :: (Branch.placedAll (some pos) (pos + 1) (forest below) ++
        Branch.placedAll parent (pos + (below.length + 1)) (forest after)) := by
  rw [Branch.placedAll, Branch.placed, Branch.flatten, flatten_forest, List.length_cons,
    List.cons_append]

def PlacedUnderOwner (entries : List Entry) : Prop :=
  ∀ parent pos i x, entries[i]? = some x →
    ∃ owner, (Branch.placedAll parent pos (forest entries))[i]? = some (x, owner) ∧
      Owned entries parent pos i x owner

/-- After a first entry `e` come those below it, and then the rest, which starts outside of it. -/
theorem placed_behind {e x : Entry} {below after : List Entry} {i : Nat}
    (hbelow : ∀ y ∈ below, e.indent < y.indent)
    (hafter : ∀ y, after[0]? = some y → y.indent ≤ e.indent)
    (ihBelow : PlacedUnderOwner below) (ihAfter : PlacedUnderOwner after) (parent : Option Nat)
    (pos : Nat) (h : (below ++ after)[i]? = some x) :
    ∃ owner,
      (Branch.placedAll parent pos (.mk e (forest below) :: forest after))[i + 1]? =
        some (x, owner) ∧
      Owned (e :: (below ++ after)) parent pos (i + 1) x owner := by
  rw [placedAll_mk, List.getElem?_cons_succ]
  by_cases hi : i < below.length
  · rw [List.getElem?_append_left hi] at h
    obtain ⟨owner, hplaced, howned⟩ := ihBelow (some pos) (pos + 1) i x h
    refine ⟨owner, ?_, howned.of_below hi (hbelow x (List.mem_of_getElem? h)) after⟩
    rwa [List.getElem?_append_left (by rwa [length_placedAll_forest])]
  · obtain ⟨k, rfl⟩ := Nat.exists_eq_add_of_le (Nat.not_lt.1 hi)
    rw [List.getElem?_append_right (Nat.le_add_right _ _), Nat.add_sub_cancel_left] at h
    obtain ⟨owner, hplaced, howned⟩ := ihAfter parent (pos + (below.length + 1)) k x h
    refine ⟨owner, ?_, ?_⟩
    · rw [List.getElem?_append_right (by rw [length_placedAll_forest]; omega),
        length_placedAll_forest, Nat.add_sub_cancel_left]
      exact hplaced
    · rw [Nat.add_right_comm]
      exact howned.of_after h hbelow hafter

theorem owned_forest (entries : List Entry) : PlacedUnderOwner entries := by
  induction entries using grouped.induct with
  | case1 =>
      intro _ _ _ _ h
      cases h
  | case2 e rest ihBelow ihAfter =>
      intro parent pos i x h
      have hbelow : ∀ y ∈ rest.takeWhile (fun y => decide (e.indent < y.indent)),
          e.indent < y.indent := by
        intro y hy
        simpa using List.mem_takeWhile_imp hy
      have hafter : ∀ y, (rest.dropWhile (fun y => decide (e.indent < y.indent)))[0]? = some y →
          y.indent ≤ e.indent := by
        intro y hy
        have hnot := List.head?_dropWhile_not (fun y => decide (e.indent < y.indent)) rest
        rw [List.head?_eq_getElem?, hy] at hnot
        simpa using hnot
      rw [forest_cons]
      cases i with
      | zero =>
          cases h
          refine ⟨parent, by rw [placedAll_mk]; rfl, .outer ?_⟩
          intro j _ hj
          exact absurd hj (Nat.not_lt_zero j)
      | succ i =>
          rw [List.getElem?_cons_succ, ← List.takeWhile_append_dropWhile (l := rest)
            (p := fun y => decide (e.indent < y.indent))] at h
          obtain ⟨owner, hplaced, howned⟩ :=
            placed_behind hbelow hafter ihBelow ihAfter parent pos h
          rw [List.takeWhile_append_dropWhile] at howned
          exact ⟨owner, hplaced, howned⟩

section stepwise

variable {entries : List Entry} {x : Entry} {i j : Nat}

theorem Stepwise.le_succ (h : Stepwise entries) {a b : Entry} (ha : entries[j]? = some a)
    (hb : entries[j + 1]? = some b) : b.indent.toNat ≤ a.indent.toNat + 1 := by
  obtain ⟨hj, rfl⟩ := List.getElem?_eq_some_iff.1 ha
  obtain ⟨hj', rfl⟩ := List.getElem?_eq_some_iff.1 hb
  exact List.isChain_iff_getElem.1 h.chain j hj'

theorem Stepwise.indent_succ (h : Stepwise entries) (hx : entries[i]? = some x)
    (hnearest : NearestBefore entries (·.indent < x.indent) i j) {e : Entry}
    (he : entries[j]? = some e) : e.indent.toNat + 1 = x.indent.toNat := by
  obtain ⟨e', he', hlt⟩ := hnearest.holds
  cases he.symm.trans he'
  have hi : j + 1 ≤ i := hnearest.before
  obtain ⟨y, hy⟩ : ∃ y, entries[j + 1]? = some y := by
    have hlength := (List.getElem?_eq_some_iff.1 hx).1
    exact ⟨_, List.getElem?_eq_getElem (Nat.lt_of_le_of_lt hi hlength)⟩
  -- what follows the parent is indented one level more at most, and no less than `x`
  have hxy : x.indent.toNat ≤ y.indent.toNat := by
    rcases Nat.eq_or_lt_of_le hi with rfl | hlt'
    · cases hx.symm.trans hy
      exact Nat.le_refl _
    · exact UInt64.le_iff_toNat_le.1 (UInt64.not_lt.1 (hnearest.nearest _ y (by omega) hlt' hy))
  have hye := h.le_succ he hy
  have hex := UInt64.lt_iff_toNat_lt.1 hlt
  omega

theorem Stepwise.nearest_iff (h : Stepwise entries) (hx : entries[i]? = some x) :
    NearestBefore entries (·.indent < x.indent) i j ↔
      NearestBefore entries (fun e => e.indent.toNat + 1 = x.indent.toNat) i j := by
  have hone {j : Nat} (hnearest : NearestBefore entries (·.indent < x.indent) i j) :
      NearestBefore entries (fun e => e.indent.toNat + 1 = x.indent.toNat) i j := by
    obtain ⟨e, he, -⟩ := hnearest.holds
    refine ⟨hnearest.before, ⟨e, he, h.indent_succ hx hnearest he⟩, ?_⟩
    intro k y hjk hki hy hsucc
    have hle := UInt64.le_iff_toNat_le.1 (UInt64.not_lt.1 (hnearest.nearest k y hjk hki hy))
    omega
  refine ⟨hone, fun hsucc => ?_⟩
  obtain ⟨e, he, hindent⟩ := hsucc.holds
  obtain ⟨owner, -, howned⟩ := owned_forest entries none 0 i x hx
  cases howned with
  | nearest j' h' =>
      rw [hsucc.unique (hone h')]
      exact h'
  | outer houter =>
      have hle := UInt64.le_iff_toNat_le.1 (houter j e hsucc.before he)
      omega

theorem Stepwise.eq_zero_iff (h : Stepwise entries) (hx : entries[i]? = some x) :
    x.indent = 0 ↔ ∀ j e, j < i → entries[j]? = some e → x.indent ≤ e.indent := by
  constructor
  · intro hzero j e _ _
    rw [hzero]
    exact UInt64.zero_le
  · intro hle
    obtain ⟨e, he⟩ : ∃ e, entries[0]? = some e :=
      ⟨_, List.getElem?_eq_getElem (Nat.zero_lt_of_lt (List.getElem?_eq_some_iff.1 hx).1)⟩
    have hfirst : e.indent = 0 := h.head e (by rw [List.head?_eq_getElem?, he]; rfl)
    cases i with
    | zero =>
        cases hx.symm.trans he
        exact hfirst
    | succ i => exact UInt64.le_zero_iff.1 (hfirst ▸ hle 0 e (Nat.succ_pos i) he)

end stepwise

/-- A forest holds the entries that it was made from in their order. The parent of an entry is the
nearest entry before it that is indented less, and an entry is at the top if there is none. If
indentations rise by single steps from zero, the parent is the nearest entry before that is indented
by exactly one level less, and only entries that are not indented are at the top. -/
theorem forest_parents (entries : List Entry) :
    Branch.flattenAll (forest entries) = entries ∧
    ∀ i x, entries[i]? = some x →
      ∃ parent, (Branch.placedAll none 0 (forest entries))[i]? = some (x, parent) ∧
        (∀ j, parent = some j ↔ NearestBefore entries (·.indent < x.indent) i j) ∧
        (parent = none ↔ ∀ j e, j < i → entries[j]? = some e → x.indent ≤ e.indent) ∧
        (Stepwise entries →
          (∀ j, parent = some j ↔
            NearestBefore entries (fun e => e.indent.toNat + 1 = x.indent.toNat) i j) ∧
          (parent = none ↔ x.indent = 0)) := by
  refine ⟨flatten_forest entries, ?_⟩
  intro i x hx
  obtain ⟨parent, hplaced, howned⟩ := owned_forest entries none 0 i x hx
  refine ⟨parent, hplaced, howned.eq_some_iff, howned.eq_none_iff, fun hstep => ⟨fun j => ?_, ?_⟩⟩
  · rw [howned.eq_some_iff, hstep.nearest_iff hx]
  · rw [howned.eq_none_iff, hstep.eq_zero_iff hx]

/-- An entry below the second of two at the top, after a branch that is two levels deep. -/
theorem forest_parents_nested :
    let entry (indent : UInt64) : Entry := ⟨"f", .function, 0, 0, indent⟩
    let entries := [entry 0, entry 1, entry 2, entry 2, entry 0, entry 1]
    Stepwise entries ∧ entries[5]? = some (entry 1) ∧
    (Branch.placedAll none 0 (forest entries))[5]? = some (entry 1, some 4) ∧
    NearestBefore entries (fun e => e.indent.toNat + 1 = 1) 5 4 := by
  intro entry entries
  have hstep : Stepwise entries := ⟨by decide, by decide⟩
  have hentry : entries[5]? = some (entry 1) := rfl
  obtain ⟨parent, hplaced, hnearest, -, hone⟩ := (forest_parents entries).2 5 _ hentry
  have hparent : parent = some 4 := by
    refine (hnearest 4).2 ⟨by decide, ⟨entry 0, rfl, by decide⟩, ?_⟩
    intro k e hk hk'
    omega
  exact ⟨hstep, hentry, hparent ▸ hplaced, ((hone hstep).1 4).1 hparent⟩

end ScriptLens.Outline
