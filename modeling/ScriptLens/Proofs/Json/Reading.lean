import ScriptLens.Proofs.Json.Escape
import ScriptLens.Proofs.Json.Numeral

namespace ScriptLens.Json

/-- A property of all values follows from its simple cases, and from its being passed on from the
parts of an array or an object to the whole. -/
@[elab_as_elim]
theorem inductionOn {motive : Json → Prop} (null : motive .null) (bool : ∀ b, motive (.bool b))
    (number : ∀ n, motive (.number n)) (string : ∀ s, motive (.string s))
    (unreadable : motive .unreadable)
    (array : ∀ items, (∀ j ∈ items, motive j) → motive (.array items))
    (object : ∀ members, (∀ m ∈ members, motive m.2) → motive (.object members)) :
    ∀ j, motive j
  | .null => null
  | .bool b => bool b
  | .number n => number n
  | .string s => string s
  | .unreadable => unreadable
  | .array items =>
      array items fun j _ => inductionOn null bool number string unreadable array object j
  | .object members =>
      object members fun m _ => inductionOn null bool number string unreadable array object m.2
termination_by j => sizeOf j
decreasing_by
  · next hj =>
    have hlt := List.sizeOf_lt_of_mem hj
    simp only [Json.array.sizeOf_spec]
    omega
  · next hm =>
    have hlt := List.sizeOf_lt_of_mem hm
    obtain ⟨key, j⟩ := m
    simp only [Json.object.sizeOf_spec, Prod.mk.sizeOf_spec] at hlt ⊢
    omega

namespace Reader

theorem skipSpace_cons {c : Char} (h : isSpace c = false) (cs : List Char) :
    skipSpace (c :: cs) = c :: cs :=
  List.dropWhile_cons_of_neg (by simp [h])

theorem skipSpace_comma (cs : List Char) : skipSpace (',' :: cs) = ',' :: cs :=
  skipSpace_cons (by decide) cs

theorem isSpace_of_isDigit {c : Char} (h : c.isDigit = true) : isSpace c = false := by
  simp only [isSpace, Bool.or_eq_false_iff, beq_eq_false_iff_ne]
  refine ⟨⟨⟨?_, ?_⟩, ?_⟩, ?_⟩ <;> rintro rfl <;> exact absurd h (by decide)

theorem chars_eq_cons (n : Numeral) :
    ∃ c cs, n.chars = c :: cs ∧ (c = '-' ∨ c.isDigit = true) := by
  cases hds : Nat.toDigits 10 n.whole with
  | nil => exact absurd hds Nat.toDigits_ne_nil
  | cons d ds =>
      have hd : d.isDigit = true := isDigit_of_mem_toDigits (hds ▸ List.mem_cons_self)
      simp only [Numeral.chars, List.append_assoc, hds]
      cases n.negative with
      | true => exact ⟨'-', _, rfl, .inl rfl⟩
      | false => exact ⟨d, _, rfl, .inr hd⟩

theorem compactChars_eq_cons (j : Json) :
    ∃ c cs, j.compactChars = c :: cs ∧ isSpace c = false ∧ c ≠ ']' := by
  cases j with
  | null => exact ⟨_, _, rfl, by decide, by decide⟩
  | bool b => cases b <;> exact ⟨_, _, rfl, by decide, by decide⟩
  | number n =>
      obtain ⟨c, cs, hcs, rfl | hc⟩ := chars_eq_cons n
      · exact ⟨_, _, hcs, by decide, by decide⟩
      · refine ⟨_, _, hcs, isSpace_of_isDigit hc, ?_⟩
        rintro rfl
        exact absurd hc (by decide)
  | string s => exact ⟨_, _, rfl, by decide, by decide⟩
  | unreadable => exact ⟨_, _, rfl, by decide, by decide⟩
  | array items => cases items <;> exact ⟨_, _, rfl, by decide, by decide⟩
  | object members =>
      rcases members with _ | ⟨⟨key, j⟩, rest⟩ <;> exact ⟨_, _, rfl, by decide, by decide⟩

theorem quoted_append (s : String) (rest : List Char) :
    quoted s ++ rest = '"' :: (s.toList.flatMap escape ++ '"' :: rest) := by
  simp [quoted]

variable {fuel : Nat} {cs rest : List Char}

theorem value?_number {n : Numeral} (h : number? (n.chars ++ rest) = some (n, rest)) :
    value? (fuel + 1) (n.chars ++ rest) = some (.number n, rest) := by
  obtain ⟨c, cs, hcs, hc⟩ := chars_eq_cons n
  have hspace : isSpace c = false := by
    rcases hc with rfl | hc
    · decide
    · exact isSpace_of_isDigit hc
  have hne : ∀ d : Char, d ≠ '-' → d.isDigit = false → c ≠ d := by
    rintro d hminus hdigit rfl
    rcases hc with rfl | hc
    · exact hminus rfl
    · rw [hdigit] at hc
      cases hc
  rw [hcs, List.cons_append] at h ⊢
  rw [value?, skipSpace_cons hspace]
  split
  case h_7 =>
    rw [h]
    rfl
  -- every other case asks for another first character
  all_goals next heq => exact absurd (List.cons.inj heq).1 (hne _ (by decide) (by decide))

theorem value?_string (s : String) :
    value? (fuel + 1) (quoted s ++ rest) = some (.string s, rest) := by
  rw [quoted_append, value?, skipSpace_cons (by decide)]
  simp only [text?_flatMap_escape]
  rfl

theorem value?_array {items : List Json} (hspace : skipSpace cs = cs) (hopen : ∀ t, cs ≠ ']' :: t)
    (h : items? fuel cs = some (items, rest)) :
    value? (fuel + 1) ('[' :: cs) = some (.array items, rest) := by
  rw [value?, skipSpace_cons (by decide)]
  -- the first item is still to come, by `hopen`
  simp only [hspace, h]
  rfl

theorem value?_object {members : List (Option String × Json)} (hspace : skipSpace cs = cs)
    (hopen : ∀ t, cs ≠ '\x7d' :: t) (h : members? fuel cs = some (members, rest)) :
    value? (fuel + 1) ('\x7b' :: cs) = some (objectOf members, rest) := by
  rw [value?, skipSpace_cons (by decide)]
  -- the first member is still to come, by `hopen`
  simp only [hspace, h]
  rfl

theorem items?_last {j : Json} (h : value? fuel cs = some (j, ']' :: rest)) :
    items? (fuel + 1) cs = some ([j], rest) := by
  rw [items?, h]
  rfl

theorem items?_more {j : Json} {items : List Json} {more : List Char}
    (h : value? fuel cs = some (j, ',' :: more)) (hmore : items? fuel more = some (items, rest)) :
    items? (fuel + 1) cs = some (j :: items, rest) := by
  rw [items?, h]
  simp only [Option.bind_eq_bind, Option.bind_some, skipSpace_comma, hmore]
  rfl

theorem key?_quoted (key : String) : key? (quoted key ++ ':' :: rest) = some (some key, rest) := by
  rw [quoted_append, key?, skipSpace_cons (by decide)]
  simp only [text?_flatMap_escape]
  rfl

theorem members?_last {key : String} {j : Json} (h : value? fuel cs = some (j, '\x7d' :: rest)) :
    members? (fuel + 1) (quoted key ++ ':' :: cs) = some ([(some key, j)], rest) := by
  simp only [members?, key?_quoted, Option.bind_eq_bind, Option.bind_some, h]
  rfl

theorem members?_more {key : String} {j : Json} {members : List (Option String × Json)}
    {more : List Char} (h : value? fuel cs = some (j, ',' :: more))
    (hmore : members? fuel more = some (members, rest)) :
    members? (fuel + 1) (quoted key ++ ':' :: cs) = some ((some key, j) :: members, rest) := by
  rw [members?, key?_quoted]
  simp only [Option.bind_eq_bind, Option.bind_some, h, skipSpace_comma, hmore]
  rfl

theorem objectOf_map_some (members : List (String × Json)) :
    objectOf (members.map fun m => (some m.1, m.2)) = .object members := by
  have hmapM : (members.map fun m => (some m.1, m.2)).mapM
      (fun m : Option String × Json => m.1.map (·, m.2)) = some members := by
    induction members with
    | nil => rfl
    | cons m members ih => simp [ih]
  simp only [objectOf, hmapM]

def Reads (j : Json) : Prop :=
  ∀ fuel rest, j.compactChars.length ≤ fuel → EndsNumber rest →
    value? fuel (j.compactChars ++ rest) = some (j, rest)

theorem endsNumber_cons {c : Char}
    (hc : c.isDigit = false ∧ c ≠ '.' ∧ c ≠ 'e' ∧ c ≠ 'E') : EndsNumber (c :: rest) := by
  intro d hd
  cases hd
  exact hc

theorem items?_compact {j : Json} {items : List Json} (hj : Reads j)
    (hitems : ∀ k ∈ items, Reads k) (hfuel : (j.compactChars ++ compactItems items).length ≤ fuel) :
    items? fuel (j.compactChars ++ (compactItems items ++ rest)) = some (j :: items, rest) := by
  induction items generalizing j fuel with
  | nil =>
      simp only [compactItems, List.length_append, List.length_cons, List.length_nil] at hfuel
      obtain ⟨fuel, rfl⟩ : ∃ f, fuel = f + 1 := ⟨fuel - 1, by omega⟩
      exact items?_last (hj fuel _ (by omega) (endsNumber_cons (by decide)))
  | cons k items ih =>
      simp only [compactItems, List.length_append, List.length_cons] at hfuel
      obtain ⟨fuel, rfl⟩ : ∃ f, fuel = f + 1 := ⟨fuel - 1, by omega⟩
      have hmore : items? fuel (k.compactChars ++ (compactItems items ++ rest)) =
          some (k :: items, rest) := by
        apply ih (hitems k List.mem_cons_self) fun l hl => hitems l (List.mem_cons_of_mem _ hl)
        rw [List.length_append]
        omega
      rw [compactItems, List.cons_append, List.cons_append, List.append_assoc]
      exact items?_more (hj fuel _ (by omega) (endsNumber_cons (by decide))) hmore

theorem members?_compact {key : String} {j : Json} {members : List (String × Json)} (hj : Reads j)
    (hmembers : ∀ m ∈ members, Reads m.2)
    (hfuel : (j.compactChars ++ compactMembers members).length < fuel) :
    members? fuel (quoted key ++ ':' :: (j.compactChars ++ (compactMembers members ++ rest))) =
      some (((key, j) :: members).map fun m => (some m.1, m.2), rest) := by
  induction members generalizing key j fuel with
  | nil =>
      simp only [compactMembers, List.length_append, List.length_cons, List.length_nil] at hfuel
      obtain ⟨fuel, rfl⟩ : ∃ f, fuel = f + 1 := ⟨fuel - 1, by omega⟩
      exact members?_last (hj fuel _ (by omega) (endsNumber_cons (by decide)))
  | cons m members ih =>
      obtain ⟨key', k⟩ := m
      simp only [compactMembers, List.length_append, List.length_cons] at hfuel
      obtain ⟨fuel, rfl⟩ : ∃ f, fuel = f + 1 := ⟨fuel - 1, by omega⟩
      have hk : Reads k := hmembers (key', k) List.mem_cons_self
      have hmore : members? fuel
          (quoted key' ++ ':' :: (k.compactChars ++ (compactMembers members ++ rest))) =
            some (((key', k) :: members).map fun m => (some m.1, m.2), rest) := by
        apply ih hk fun l hl => hmembers l (List.mem_cons_of_mem _ hl)
        rw [List.length_append]
        omega
      rw [compactMembers]
      simp only [List.cons_append, List.append_assoc]
      exact members?_more (hj fuel _ (by omega) (endsNumber_cons (by decide))) hmore

/-- No compact form is empty, so there is a step to take. -/
theorem reads_of_step {j : Json}
    (h : ∀ fuel rest, j.compactChars.length ≤ fuel + 1 → EndsNumber rest →
      value? (fuel + 1) (j.compactChars ++ rest) = some (j, rest)) : Reads j := by
  intro fuel rest hfuel hrest
  obtain ⟨c, cs, hcs, -⟩ := compactChars_eq_cons j
  cases fuel with
  | zero =>
      rw [hcs] at hfuel
      exact absurd hfuel (Nat.not_succ_le_zero _)
  | succ fuel => exact h fuel rest hfuel hrest

theorem reads_array {items : List Json} (h : ∀ j ∈ items, Reads j) : Reads (.array items) := by
  apply reads_of_step
  intro fuel rest hfuel hrest
  cases items with
  | nil => rfl
  | cons j items =>
      obtain ⟨c, cs, hcs, hspace, hclose⟩ := compactChars_eq_cons j
      simp only [compactChars, List.length_cons, List.cons_append] at hfuel
      have hitems : items? fuel (j.compactChars ++ (compactItems items ++ rest)) =
          some (j :: items, rest) :=
        items?_compact (h j List.mem_cons_self) (fun k hk => h k (List.mem_cons_of_mem _ hk))
          (Nat.le_of_succ_le_succ hfuel)
      rw [compactChars, List.cons_append, List.cons_append, List.append_assoc]
      apply value?_array _ _ hitems
      · rw [hcs, List.cons_append, skipSpace_cons hspace]
      · intro t ht
        rw [hcs, List.cons_append] at ht
        exact hclose (List.cons.inj ht).1

theorem reads_object {members : List (String × Json)} (h : ∀ m ∈ members, Reads m.2) :
    Reads (.object members) := by
  apply reads_of_step
  intro fuel rest hfuel hrest
  cases members with
  | nil => rfl
  | cons m members =>
      obtain ⟨key, j⟩ := m
      have hj : Reads j := h (key, j) List.mem_cons_self
      simp only [compactChars, List.length_cons, List.cons_append, List.length_append] at hfuel
      have hmembers : members? fuel
          (quoted key ++ ':' :: (j.compactChars ++ (compactMembers members ++ rest))) =
            some (((key, j) :: members).map fun m => (some m.1, m.2), rest) := by
        apply members?_compact hj fun k hk => h k (List.mem_cons_of_mem _ hk)
        rw [List.length_append]
        omega
      rw [compactChars, ← objectOf_map_some]
      simp only [List.cons_append, List.append_assoc]
      apply value?_object _ _ hmembers
      · rw [quoted_append, skipSpace_cons (by decide)]
      · intro t ht
        rw [quoted_append] at ht
        exact absurd (List.cons.inj ht).1 (by decide)

theorem reads (j : Json) : Reads j := by
  induction j using Json.inductionOn with
  | null => exact reads_of_step fun fuel rest _ _ => rfl
  | bool b => cases b <;> exact reads_of_step fun fuel rest _ _ => rfl
  | number n =>
      exact reads_of_step fun fuel rest _ hrest => value?_number (number?_chars n hrest)
  | string s => exact reads_of_step fun fuel rest _ _ => value?_string s
  | unreadable => exact reads_of_step fun fuel rest _ _ => rfl
  | array items ih => exact reads_array ih
  | object members ih => exact reads_object ih

end Reader

theorem read?_compact (j : Json) : read? j.compact = some j := by
  have hread := Reader.reads j (2 * j.compactChars.length + 2) [] (by omega)
    fun c hc => by cases hc
  rw [List.append_nil] at hread
  rw [read?, compact, String.toList_ofList]
  simp only [hread, Option.bind_eq_bind, Option.bind_some]
  rfl

end ScriptLens.Json
