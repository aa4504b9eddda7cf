import ScriptLens.Proofs.Json.Reading

namespace ScriptLens

def Clean (cs : List Char) : Prop :=
  ∀ c ∈ cs, 0x20 ≤ c.toNat

@[simp] theorem clean_nil : Clean [] :=
  List.forall_mem_nil _

@[simp] theorem clean_cons_iff {c : Char} {cs : List Char} :
    Clean (c :: cs) ↔ 0x20 ≤ c.toNat ∧ Clean cs :=
  List.forall_mem_cons

@[simp] theorem clean_append_iff {cs ds : List Char} : Clean (cs ++ ds) ↔ Clean cs ∧ Clean ds :=
  List.forall_mem_append

theorem clean_of_isDigit {cs : List Char} (h : ∀ c ∈ cs, c.isDigit = true) : Clean cs := by
  intro c hc
  have hdigit := isDigit_iff.1 (h c hc)
  omega

@[simp] theorem clean_toDigits (n : Nat) : Clean (Nat.toDigits 10 n) :=
  clean_of_isDigit fun _ hc => isDigit_of_mem_toDigits hc

namespace Numeral

theorem clean_digits (ds : List (Fin 10)) : Clean (ds.map digitChar) := by
  apply clean_of_isDigit
  intro c hc
  obtain ⟨d, -, rfl⟩ := List.mem_map.1 hc
  exact Json.Reader.isDigit_digitChar d

theorem clean_exponentChars (e : Int) : Clean (exponentChars e) := by
  cases e <;> simp [exponentChars]

theorem clean_chars (n : Numeral) : Clean n.chars := by
  have hsign : Clean (if n.negative then ['-'] else []) := by
    split <;> simp
  have hfraction : Clean (if n.fraction.isEmpty then [] else '.' :: n.fraction.map digitChar) := by
    split <;> simp [clean_digits]
  have hexponent : Clean ((n.exponent.map exponentChars).getD []) := by
    cases n.exponent <;> simp [clean_exponentChars]
  simp only [chars, clean_append_iff]
  exact ⟨⟨⟨hsign, clean_toDigits n.whole⟩, hfraction⟩, hexponent⟩

end Numeral

namespace Json

theorem Reader.le_toNat_of_shortEscape? {letter c : Char} (h : shortEscape? letter = some c) :
    0x20 ≤ letter.toNat := by
  unfold shortEscape? at h
  split at h
  all_goals first | decide | cases h

theorem clean_escape (c : Char) : Clean (escape c) := by
  obtain ⟨letter, hescape, hletter⟩ | ⟨hc, hescape⟩ | ⟨-, -, hc, hescape⟩ := escape_cases c
  · rw [hescape]
    simp [Reader.le_toNat_of_shortEscape? hletter]
  · have hdigit : ∀ d < 16, 0x20 ≤ (Nat.digitChar d).toNat := by decide
    rw [hescape]
    simp [hdigit (c.toNat / 16) (by omega), hdigit (c.toNat % 16) (by omega)]
  · rw [hescape]
    simp [hc]

@[simp] theorem clean_quoted (s : String) : Clean (quoted s) := by
  have hescaped : Clean (s.toList.flatMap escape) := by
    intro c hc
    obtain ⟨d, -, hd⟩ := List.mem_flatMap.1 hc
    exact clean_escape d c hd
  simp [quoted, hescaped]

theorem clean_compactItems {items : List Json} (h : ∀ j ∈ items, Clean j.compactChars) :
    Clean (compactItems items) := by
  induction items with
  | nil => simp [compactItems]
  | cons j items ih =>
      rw [List.forall_mem_cons] at h
      simp [compactItems, h.1, ih h.2]

theorem clean_compactMembers {members : List (String × Json)}
    (h : ∀ m ∈ members, Clean m.2.compactChars) : Clean (compactMembers members) := by
  induction members with
  | nil => simp [compactMembers]
  | cons m members ih =>
      rw [List.forall_mem_cons] at h
      simp [compactMembers, h.1, ih h.2]

theorem clean_compactChars (j : Json) : Clean j.compactChars := by
  induction j using inductionOn with
  | null => simp [compactChars]
  | bool b => cases b <;> simp [compactChars]
  | number n => exact n.clean_chars
  | string s => exact clean_quoted s
  | unreadable =>
      have hchars : unreadableChars = ['"', '\\', 'u', 'd', '8', '0', '0', '"'] := by decide
      simp [compactChars, hchars]
  | array items ih =>
      cases items with
      | nil => simp [compactChars]
      | cons j items =>
          rw [List.forall_mem_cons] at ih
          simp [compactChars, ih.1, clean_compactItems ih.2]
  | object members ih =>
      cases members with
      | nil => simp [compactChars]
      | cons m members =>
          rw [List.forall_mem_cons] at ih
          simp [compactChars, ih.1, clean_compactMembers ih.2]

end Json

end ScriptLens
