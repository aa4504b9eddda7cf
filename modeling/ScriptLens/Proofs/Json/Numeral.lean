import ScriptLens.Json.Printer
import ScriptLens.Json.Reader
import ScriptLens.Proofs.Number.Decimal

namespace ScriptLens.Json.Reader

/-- What follows a number: no digit, no point and no exponent. -/
def EndsNumber (rest : List Char) : Prop :=
  ∀ c ∈ rest.head?, c.isDigit = false ∧ c ≠ '.' ∧ c ≠ 'e' ∧ c ≠ 'E'

variable {rest : List Char}

theorem whole?_toDigits (n : Nat) (hrest : ∀ c ∈ rest.head?, c.isDigit = false) :
    whole? (Nat.toDigits 10 n ++ rest) = some (n, rest) := by
  have hdigits : ∀ c ∈ Nat.toDigits 10 n, c.isDigit = true := fun c hc => isDigit_of_mem_toDigits hc
  have hn := Digits.toNat_toDigits n
  rw [whole?, Digits.split_append hdigits hrest]
  cases hds : Nat.toDigits 10 n with
  | nil => exact absurd hds Nat.toDigits_ne_nil
  | cons d ds =>
      rw [hds] at hn hdigits
      cases ds with
      | nil =>
          have hd : (Digits.value d).val = n := by
            rw [← hn]
            exact (Nat.zero_add _).symm
          simp only [List.map_cons, List.map_nil, hd]
      | cons d' ds =>
          -- two digits or more, so the first of them is not a zero
          have hpos : 0 < n := by
            rw [Nat.pos_iff_ne_zero]
            rintro rfl
            simp at hds
          have hhead := head?_toDigits_ne_zero hpos
          have hd : (Digits.value d).val ≠ 0 := by
            rw [hds, List.head?_cons, ne_eq, Option.some.injEq] at hhead
            have hbounds := isDigit_iff.1 (hdigits d List.mem_cons_self)
            rw [Digits.val_value (hdigits d List.mem_cons_self)]
            intro hzero
            exact hhead (Char.toNat_inj.1 (show d.toNat = 48 by omega))
          simp only [List.map_cons, if_neg hd]
          simp only [List.map_cons] at hn
          rw [hn]

theorem isDigit_digitChar (d : Fin 10) : (Numeral.digitChar d).isDigit = true := by
  revert d
  decide

theorem map_value_digitChar (ds : List (Fin 10)) :
    (ds.map Numeral.digitChar).map Digits.value = ds := by
  have hvalue : ∀ d, Digits.value (Numeral.digitChar d) = d := by decide
  induction ds with
  | nil => rfl
  | cons d ds ih => rw [List.map_cons, List.map_cons, hvalue, ih]

theorem fraction?_chars (ds : List (Fin 10))
    (hrest : ∀ c ∈ rest.head?, c.isDigit = false ∧ c ≠ '.') :
    fraction? ((if ds.isEmpty then [] else '.' :: ds.map Numeral.digitChar) ++ rest) =
      some (ds, rest) := by
  cases ds with
  | nil =>
      rw [List.isEmpty_nil, if_pos rfl, List.nil_append]
      cases rest with
      | nil => rfl
      | cons c rest =>
          rw [fraction?]
          simp [(hrest c rfl).2]
  | cons d ds =>
      have hdigits : ∀ c ∈ (d :: ds).map Numeral.digitChar, c.isDigit = true := by
        intro c hc
        obtain ⟨d, -, rfl⟩ := List.mem_map.1 hc
        exact isDigit_digitChar d
      have hsplit := Digits.split_append hdigits fun c hc => (hrest c hc).1
      rw [map_value_digitChar] at hsplit
      rw [List.isEmpty_cons, if_neg Bool.false_ne_true, List.cons_append, fraction?, hsplit]

theorem exponent?_toDigits (n : Nat) (hrest : ∀ c ∈ rest.head?, c.isDigit = false) :
    exponent? ('e' :: Nat.toDigits 10 n ++ rest) = some (some (n : Int), rest) := by
  rw [List.cons_append, exponent?, if_pos (.inl rfl), Digits.number?_toDigits n hrest,
    Option.map_some]
  · intro cs
    exact toDigits_append_ne_cons (by decide)
  · intro cs
    exact toDigits_append_ne_cons (by decide)

theorem exponent?_chars (e : Option Int) (hrest : EndsNumber rest) :
    exponent? ((e.map Numeral.exponentChars).getD [] ++ rest) = some (e, rest) := by
  have hdigit : ∀ c ∈ rest.head?, c.isDigit = false := fun c hc => (hrest c hc).1
  cases e with
  | none =>
      cases rest with
      | nil => rfl
      | cons c rest =>
          obtain ⟨-, -, hlower, hupper⟩ := hrest c rfl
          unfold exponent?
          exact if_neg (not_or.2 ⟨hlower, hupper⟩)
  | some e =>
      cases e with
      | ofNat n => exact exponent?_toDigits n hdigit
      | negSucc n =>
          have hn := Digits.number?_toDigits (n + 1) hdigit
          rw [Option.map_some, Option.getD_some, Numeral.exponentChars, List.cons_append,
            List.cons_append, exponent?, if_pos (.inl rfl), hn]
          rfl

/-- An exponent cannot be taken for a part of what stands before it. -/
theorem head?_exponentChars (e : Option Int) (hrest : EndsNumber rest) :
    ∀ c ∈ ((e.map Numeral.exponentChars).getD [] ++ rest).head?, c.isDigit = false ∧ c ≠ '.' := by
  intro c hc
  match e with
  | none => exact ⟨(hrest c hc).1, (hrest c hc).2.1⟩
  | some (.ofNat n) =>
      cases hc
      decide
  | some (.negSucc n) =>
      cases hc
      decide

theorem number?_chars (n : Numeral) (hrest : EndsNumber rest) :
    number? (n.chars ++ rest) = some (n, rest) := by
  obtain ⟨negative, whole, ds, e⟩ := n
  have hexponent := head?_exponentChars e hrest
  have hfraction : ∀ c ∈ ((if ds.isEmpty then [] else '.' :: ds.map Numeral.digitChar)
      ++ ((e.map Numeral.exponentChars).getD [] ++ rest)).head?, c.isDigit = false := by
    intro c hc
    cases ds with
    | nil => exact (hexponent c hc).1
    | cons d ds =>
        cases hc
        decide
  have hunsigned : unsigned? negative (Nat.toDigits 10 whole
      ++ ((if ds.isEmpty then [] else '.' :: ds.map Numeral.digitChar)
      ++ ((e.map Numeral.exponentChars).getD [] ++ rest))) =
        some (⟨negative, whole, ds, e⟩, rest) := by
    rw [unsigned?, whole?_toDigits whole hfraction]
    simp only [Option.bind_eq_bind, Option.bind_some, fraction?_chars ds hexponent,
      exponent?_chars e hrest]
    rfl
  simp only [Numeral.chars, List.append_assoc]
  cases negative with
  | true => exact hunsigned
  | false =>
      rw [if_neg Bool.false_ne_true, List.nil_append, number?]
      · exact hunsigned
      · intro cs
        exact toDigits_append_ne_cons (by decide)

end ScriptLens.Json.Reader
