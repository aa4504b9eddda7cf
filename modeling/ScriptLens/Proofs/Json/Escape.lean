import Mathlib.Tactic.SplitIfs
import ScriptLens.Json.Printer
import ScriptLens.Json.Reader

namespace ScriptLens.Json

/-- The three ways to write a character: by a letter after a backslash, by its number, or as it
stands. -/
theorem escape_cases (c : Char) :
    (∃ letter, escape c = ['\\', letter] ∧ Reader.shortEscape? letter = some c) ∨
    (c.toNat < 0x20 ∧ escape c =
      ['\\', 'u', '0', '0', Nat.digitChar (c.toNat / 16), Nat.digitChar (c.toNat % 16)]) ∨
    (c ≠ '"' ∧ c ≠ '\\' ∧ 0x20 ≤ c.toNat ∧ escape c = [c]) := by
  unfold escape
  split_ifs with hquote hslash hback htab hline hform hreturn hcontrol
  · exact .inl ⟨'"', rfl, congrArg some hquote.symm⟩
  · exact .inl ⟨'\\', rfl, congrArg some hslash.symm⟩
  · exact .inl ⟨'b', rfl, congrArg some hback.symm⟩
  · exact .inl ⟨'t', rfl, congrArg some htab.symm⟩
  · exact .inl ⟨'n', rfl, congrArg some hline.symm⟩
  · exact .inl ⟨'f', rfl, congrArg some hform.symm⟩
  · exact .inl ⟨'r', rfl, congrArg some hreturn.symm⟩
  · exact .inr (.inl ⟨hcontrol, rfl⟩)
  · exact .inr (.inr ⟨hquote, hslash, Nat.not_lt.1 hcontrol, rfl⟩)

namespace Reader

theorem hexDigit?_digitChar : ∀ d < 16, hexDigit? (Nat.digitChar d) = some d := by
  decide

theorem codeUnit?_control {n : Nat} (h : n < 0x20) :
    codeUnit? '0' '0' (Nat.digitChar (n / 16)) (Nat.digitChar (n % 16)) = some n := by
  have hzero : hexDigit? '0' = some 0 := by decide
  have hhigh := hexDigit?_digitChar (n / 16) (by omega)
  have hlow := hexDigit?_digitChar (n % 16) (by omega)
  simp only [codeUnit?, hzero, hhigh, hlow]
  exact congrArg some (show ((0 * 16 + 0) * 16 + n / 16) * 16 + n % 16 = n by omega)

theorem pieces?_short {letter c : Char} (h : shortEscape? letter = some c) (rest : List Char) :
    pieces? ('\\' :: letter :: rest) =
      (pieces? rest).map fun (ps, rest) => (.char c :: ps, rest) := by
  have hletter : letter ≠ 'u' := by
    rintro rfl
    cases h
  rw [pieces?, h]
  · cases pieces? rest <;> rfl
  · simp [hletter]

theorem pieces?_unit {n : Nat} (h : n < 0x20) (rest : List Char) :
    pieces? ('\\' :: 'u' :: '0' :: '0' :: Nat.digitChar (n / 16) :: Nat.digitChar (n % 16) ::
        rest) =
      (pieces? rest).map fun (ps, rest) => (.unit n :: ps, rest) := by
  rw [pieces?, codeUnit?_control h]
  cases pieces? rest <;> rfl

theorem pieces?_plain {c : Char} (hquote : c ≠ '"') (hslash : c ≠ '\\') (hc : 0x20 ≤ c.toNat)
    (rest : List Char) :
    pieces? (c :: rest) = (pieces? rest).map fun (ps, rest) => (.char c :: ps, rest) := by
  have hplain : (decide (c.toNat < 0x20) || c == '\\') = false := by
    simp [hslash, Nat.not_lt.2 hc]
  rw [pieces?, hplain]
  · cases pieces? rest <;> rfl
  · simp [hquote]
  · simp [hslash]
  · simp [hslash]

theorem join?_unit {n : Nat} (h : n < 0xD800) (ps : List Piece) :
    join? (.unit n :: ps) = (join? ps).map (.ofNat n :: ·) := by
  have hhigh : isHigh n = false := by
    rw [isHigh, decide_eq_false (Nat.not_le.2 h), Bool.false_and]
  have hlow : isLow n = false := by
    rw [isLow, decide_eq_false (by omega), Bool.false_and]
  cases ps with
  | nil => simp only [join?, hhigh, hlow, Bool.or_self, Bool.false_eq_true, if_false]
  | cons p ps =>
      cases p <;>
        simp only [join?, hhigh, hlow, Bool.or_self, Bool.false_and, Bool.false_eq_true, if_false]

theorem exists_piece (c : Char) : ∃ p : Piece,
    (∀ rest, pieces? (escape c ++ rest) =
      (pieces? rest).map fun (ps, rest) => (p :: ps, rest)) ∧
    ∀ ps, join? (p :: ps) = (join? ps).map (c :: ·) := by
  obtain ⟨letter, hescape, hletter⟩ | ⟨hc, hescape⟩ | ⟨hquote, hslash, hc, hescape⟩ :=
    escape_cases c
  · refine ⟨.char c, fun rest => ?_, fun ps => by rw [join?]⟩
    rw [hescape]
    exact pieces?_short hletter rest
  · refine ⟨.unit c.toNat, fun rest => ?_, fun ps => ?_⟩
    · rw [hescape]
      exact pieces?_unit hc rest
    · rw [join?_unit (by omega), Char.ofNat_toNat]
  · refine ⟨.char c, fun rest => ?_, fun ps => by rw [join?]⟩
    rw [hescape]
    exact pieces?_plain hquote hslash hc rest

theorem exists_pieces (cs rest : List Char) : ∃ ps,
    pieces? (cs.flatMap escape ++ '"' :: rest) = some (ps, rest) ∧ join? ps = some cs := by
  induction cs with
  | nil => exact ⟨[], rfl, rfl⟩
  | cons c cs ih =>
      obtain ⟨ps, hps, hcs⟩ := ih
      obtain ⟨p, hpieces, hjoin⟩ := exists_piece c
      refine ⟨p :: ps, ?_, ?_⟩
      · rw [List.flatMap_cons, List.append_assoc, hpieces, hps, Option.map_some]
      · rw [hjoin, hcs, Option.map_some]

theorem text?_flatMap_escape (s : String) (rest : List Char) :
    text? (s.toList.flatMap escape ++ '"' :: rest) = some (some s, rest) := by
  obtain ⟨ps, hps, hs⟩ := exists_pieces s.toList rest
  rw [text?, hps]
  simp [hs]

end Reader

end ScriptLens.Json
