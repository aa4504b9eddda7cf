import ScriptLens.Number.Digits
import ScriptLens.Number.Unsigned

namespace ScriptLens

theorem isDigit_of_mem_toDigits {n : Nat} {c : Char} (h : c ∈ Nat.toDigits 10 n) :
    c.isDigit = true :=
  Nat.isDigit_of_mem_toDigits (by decide) (by decide) h

theorem toDigits_inj {m n : Nat} (h : Nat.toDigits 10 m = Nat.toDigits 10 n) : m = n :=
  calc
    m = Nat.ofDigitChars 10 (Nat.toDigits 10 m) 0 := Nat.ofDigitChars_ten_toDigits.symm
    _ = Nat.ofDigitChars 10 (Nat.toDigits 10 n) 0 := by rw [h]
    _ = n := Nat.ofDigitChars_ten_toDigits

theorem isDigit_iff {c : Char} : c.isDigit = true ↔ 48 ≤ c.toNat ∧ c.toNat ≤ 57 := by
  simp only [Char.isDigit, Bool.and_eq_true, decide_eq_true_eq, ge_iff_le, UInt32.le_iff_toNat_le]
  rfl

theorem toDigits_append_ne_cons {n : Nat} {rest cs : List Char} {c : Char}
    (hc : c.isDigit = false) : Nat.toDigits 10 n ++ rest ≠ c :: cs := by
  intro h
  cases hds : Nat.toDigits 10 n with
  | nil => exact absurd hds Nat.toDigits_ne_nil
  | cons d ds =>
      rw [hds, List.cons_append, List.cons.injEq] at h
      have hd : d.isDigit = true := isDigit_of_mem_toDigits (hds ▸ List.mem_cons_self)
      rw [h.1, hc] at hd
      cases hd

theorem head?_toDigits_ne_zero {n : Nat} (h : 0 < n) : (Nat.toDigits 10 n).head? ≠ some '0' := by
  induction n using Nat.strongRecOn with
  | ind n ih =>
      rw [Nat.toDigits_eq_if (by decide)]
      split
      · simp only [List.head?_cons, ne_eq, Option.some.injEq, Nat.digitChar_eq_zero]
        omega
      · have hshorter := ih (n / 10) (by omega) (by omega)
        cases hds : Nat.toDigits 10 (n / 10) with
        | nil => exact absurd hds Nat.toDigits_ne_nil
        | cons d ds => rwa [hds] at hshorter

namespace Digits

theorem val_value {c : Char} (h : c.isDigit = true) : (value c).val = c.toNat - 48 := by
  have hc := isDigit_iff.1 h
  exact Nat.mod_eq_of_lt (show c.toNat - 48 < 10 by omega)

theorem append_map_value {cs : List Char} (h : ∀ c ∈ cs, c.isDigit = true) (acc : Nat) :
    append acc (cs.map value) = Nat.ofDigitChars 10 cs acc := by
  induction cs generalizing acc with
  | nil => rw [Nat.ofDigitChars_nil]; rfl
  | cons c cs ih =>
      have hc := val_value (h c List.mem_cons_self)
      rw [Nat.ofDigitChars_cons, ← ih fun d hd => h d (List.mem_cons_of_mem _ hd), List.map_cons]
      simp only [append, List.foldl_cons, hc, Nat.mul_comm 10 acc]
      rfl

theorem toNat_toDigits (n : Nat) : toNat ((Nat.toDigits 10 n).map value) = n := by
  rw [toNat, append_map_value fun c hc => isDigit_of_mem_toDigits hc, Nat.ofDigitChars_ten_toDigits]

theorem split_append {ds rest : List Char} (hds : ∀ c ∈ ds, c.isDigit = true)
    (hrest : ∀ c ∈ rest.head?, c.isDigit = false) : split (ds ++ rest) = (ds.map value, rest) := by
  have htake : rest.takeWhile Char.isDigit = [] := by
    cases rest with
    | nil => rfl
    | cons c rest => rw [List.takeWhile_cons_of_neg (by simp [hrest c rfl])]
  have hdrop : rest.dropWhile Char.isDigit = rest := by
    cases rest with
    | nil => rfl
    | cons c rest => rw [List.dropWhile_cons_of_neg (by simp [hrest c rfl])]
  rw [split, List.takeWhile_append_of_pos hds, List.dropWhile_append_of_pos hds, htake, hdrop,
    List.append_nil]

theorem number?_toDigits (n : Nat) {rest : List Char}
    (hrest : ∀ c ∈ rest.head?, c.isDigit = false) :
    number? (Nat.toDigits 10 n ++ rest) = some (n, rest) := by
  have hn := toNat_toDigits n
  rw [number?, split_append (fun c hc => isDigit_of_mem_toDigits hc) hrest]
  cases hds : Nat.toDigits 10 n with
  | nil => exact absurd hds Nat.toDigits_ne_nil
  | cons d ds =>
      rw [hds] at hn
      simp only [List.map_cons] at hn ⊢
      rw [hn]

end Digits

namespace Unsigned

theorem digit?_of_isDigit {c : Char} (h : c.isDigit = true) :
    digit? 10 c = some (c.toNat - 48) := by
  have hc := isDigit_iff.1 h
  have hle : '0' ≤ c ∧ c ≤ '9' := by
    simp only [Char.le_def, UInt32.le_iff_toNat_le]
    exact hc
  have hlt : c.toNat - 48 < 10 := by omega
  rw [digit?, if_pos hle]
  exact Option.filter_eq_some_iff.2 ⟨rfl, by simpa using hlt⟩

theorem digit?_of_not_isDigit {c : Char} (h : c.isDigit = false) : digit? 10 c = none := by
  have hc : ¬ (48 ≤ c.toNat ∧ c.toNat ≤ 57) := by rw [← isDigit_iff, h]; exact Bool.false_ne_true
  have hnot : ¬ ('0' ≤ c ∧ c ≤ '9') := by
    simp only [Char.le_def, UInt32.le_iff_toNat_le]
    exact hc
  rw [digit?, if_neg hnot, Option.filter_eq_none_iff]
  intro d hd
  -- a letter counts ten or more
  have hten : 10 ≤ d := by
    split at hd
    · cases hd
      exact Nat.le_add_left _ _
    · split at hd
      · cases hd
        exact Nat.le_add_left _ _
      · cases hd
  simpa using hten

theorem le_ofDigitChars (cs : List Char) (acc : Nat) : acc ≤ Nat.ofDigitChars 10 cs acc := by
  induction cs generalizing acc with
  | nil => exact Nat.le_of_eq Nat.ofDigitChars_nil.symm
  | cons c cs ih =>
      rw [Nat.ofDigitChars_cons]
      exact Nat.le_trans (by omega) (ih _)

theorem readDigits_of_isDigit {cs : List Char} (h : ∀ c ∈ cs, c.isDigit = true) {acc : Nat}
    (hlt : Nat.ofDigitChars 10 cs acc < UInt64.size) :
    readDigits 10 acc cs = .ok (Nat.ofDigitChars 10 cs acc) := by
  induction cs generalizing acc with
  | nil => rw [readDigits, Nat.ofDigitChars_nil]
  | cons c cs ih =>
      rw [Nat.ofDigitChars_cons] at hlt ⊢
      have hacc : acc * 10 + (c.toNat - 48) < UInt64.size := by
        rw [Nat.mul_comm]
        exact Nat.lt_of_le_of_lt (le_ofDigitChars cs _) hlt
      rw [readDigits, digit?_of_isDigit (h c List.mem_cons_self)]
      simp only [if_pos hacc]
      rw [← ih (fun d hd => h d (List.mem_cons_of_mem _ hd)) hlt, Nat.mul_comm]
      rfl

theorem readDigits_eq_ok {cs : List Char} {acc n : Nat} (hacc : acc < UInt64.size)
    (h : readDigits 10 acc cs = .ok n) :
    (∀ c ∈ cs, c.isDigit = true) ∧ Nat.ofDigitChars 10 cs acc = n ∧ n < UInt64.size := by
  induction cs generalizing acc with
  | nil =>
      cases h
      exact ⟨by simp, Nat.ofDigitChars_nil, hacc⟩
  | cons c cs ih =>
      rw [readDigits] at h
      cases hc : c.isDigit with
      | false =>
          rw [digit?_of_not_isDigit hc] at h
          cases h
      | true =>
          rw [digit?_of_isDigit hc] at h
          dsimp only at h
          split at h
          · next hlt =>
            obtain ⟨hdigits, hvalue, hn⟩ := ih hlt h
            rw [Nat.ofDigitChars_cons, Nat.mul_comm]
            exact ⟨List.forall_mem_cons.2 ⟨hc, hdigits⟩, hvalue, hn⟩
          · cases h

theorem readDigits_of_too_large {cs : List Char} {acc : Nat} (h : ∀ c ∈ cs, c.isDigit = true)
    (hacc : acc < UInt64.size) (hle : UInt64.size ≤ Nat.ofDigitChars 10 cs acc) :
    readDigits 10 acc cs = .error .tooLarge := by
  induction cs generalizing acc with
  | nil =>
      rw [Nat.ofDigitChars_nil] at hle
      exact absurd hacc (Nat.not_lt.2 hle)
  | cons c cs ih =>
      obtain ⟨hc, hcs⟩ := List.forall_mem_cons.1 h
      rw [Nat.ofDigitChars_cons, Nat.mul_comm] at hle
      rw [readDigits, digit?_of_isDigit hc]
      dsimp only
      split
      · next hlt => exact ih hcs hlt hle
      · rfl

/-- A text denotes a number by decimal digits, of which there is at least one. A plus sign may stand
in front, and so may any number of zeros. -/
inductive Spells : List Char → Nat → Prop
  | plain {digits : List Char} {n : Nat} (hne : digits ≠ []) (h : ∀ c ∈ digits, c.isDigit = true)
      (hvalue : Nat.ofDigitChars 10 digits 0 = n) : Spells digits n
  | plus {digits : List Char} {n : Nat} (hne : digits ≠ []) (h : ∀ c ∈ digits, c.isDigit = true)
      (hvalue : Nat.ofDigitChars 10 digits 0 = n) : Spells ('+' :: digits) n

theorem spells_toDigits (n : Nat) : Spells (Nat.toDigits 10 n) n :=
  .plain Nat.toDigits_ne_nil (fun _ => isDigit_of_mem_toDigits) Nat.ofDigitChars_ten_toDigits

theorem read_of_ne_plus {c : Char} {cs : List Char} (h : c ≠ '+') :
    read 10 (c :: cs) = readDigits 10 0 (c :: cs) := by
  rw [read]
  · exact List.cons_ne_nil c cs
  · rintro ⟨⟩
    exact h rfl
  · rintro _ ⟨⟩
    exact h rfl

theorem read_plus {digits : List Char} (hne : digits ≠ []) :
    read 10 ('+' :: digits) = readDigits 10 0 digits := by
  rw [read]
  exact hne

/-- What is read of a text that denotes a number is the reading of its digits. -/
theorem Spells.read_eq {cs : List Char} {n : Nat} (h : Spells cs n) :
    ∃ digits, (∀ c ∈ digits, c.isDigit = true) ∧ Nat.ofDigitChars 10 digits 0 = n ∧
      read 10 cs = readDigits 10 0 digits := by
  cases h with
  | plain hne h hvalue =>
      refine ⟨cs, h, hvalue, ?_⟩
      cases cs with
      | nil => exact absurd rfl hne
      | cons c cs =>
          apply read_of_ne_plus
          rintro rfl
          exact absurd (h '+' List.mem_cons_self) (by decide)
  | plus hne h hvalue => exact ⟨_, h, hvalue, read_plus hne⟩

theorem Spells.of_read {cs : List Char} {n : Nat} (h : read 10 cs = .ok n) :
    Spells cs n ∧ n < UInt64.size := by
  have hzero : 0 < UInt64.size := by decide
  cases cs with
  | nil => cases h
  | cons c cs =>
      by_cases hc : c = '+'
      · subst hc
        by_cases hne : cs = []
        · subst hne
          cases h
        · rw [read_plus hne] at h
          obtain ⟨hdigits, hvalue, hn⟩ := readDigits_eq_ok hzero h
          exact ⟨.plus hne hdigits hvalue, hn⟩
      · rw [read_of_ne_plus hc] at h
        obtain ⟨hdigits, hvalue, hn⟩ := readDigits_eq_ok hzero h
        exact ⟨.plain (List.cons_ne_nil c cs) hdigits hvalue, hn⟩

theorem read_eq_ok_iff {cs : List Char} {n : Nat} :
    read 10 cs = .ok n ↔ Spells cs n ∧ n < UInt64.size := by
  refine ⟨Spells.of_read, ?_⟩
  rintro ⟨h, hn⟩
  obtain ⟨digits, hdigits, rfl, hread⟩ := h.read_eq
  rw [hread, readDigits_of_isDigit hdigits hn]

theorem Spells.read_tooLarge {cs : List Char} {n : Nat} (h : Spells cs n) (hn : UInt64.size ≤ n) :
    read 10 cs = .error .tooLarge := by
  obtain ⟨digits, hdigits, rfl, hread⟩ := h.read_eq
  rw [hread, readDigits_of_too_large hdigits (by decide) hn]

theorem read_toDigits {n : Nat} (h : n < UInt64.size) : read 10 (Nat.toDigits 10 n) = .ok n :=
  read_eq_ok_iff.2 ⟨spells_toDigits n, h⟩

end Unsigned

end ScriptLens
