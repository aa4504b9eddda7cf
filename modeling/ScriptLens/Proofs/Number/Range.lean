import ScriptLens.Json.Basic

namespace ScriptLens

namespace Binary64

theorem divEven_le (num den : Nat) : divEven num den ≤ num / den + 1 := by
  simp only [divEven]
  split <;> omega

/-- The scale of a whole number leaves it 53 bits, or one more before rounding. -/
theorem scaleFor_one (n : Nat) :
    (n.log2 : Int) - 53 ≤ scaleFor n 1 ∧ scaleFor n 1 ≤ (n.log2 : Int) - 52 := by
  have hone : Nat.log2 1 = 0 := by decide
  simp only [scaleFor, hone]
  split <;> split <;> omega

theorem mantissa_le {n : Nat} {e : Int} (he : (n.log2 : Int) - 53 ≤ e) :
    (if e < 0 then divEven (n * Nat.pow 2 (-e).toNat) 1
      else divEven n (1 * Nat.pow 2 e.toNat)) ≤ Nat.pow 2 54 := by
  have hn : n < 2 ^ (n.log2 + 1) := Nat.lt_log2_self
  split
  · have hscaled : n * 2 ^ (-e).toNat < 2 ^ 54 :=
      calc n * 2 ^ (-e).toNat
          < 2 ^ (n.log2 + 1) * 2 ^ (-e).toNat := Nat.mul_lt_mul_of_pos_right hn (Nat.two_pow_pos _)
        _ = 2 ^ (n.log2 + 1 + (-e).toNat) := (Nat.pow_add _ _ _).symm
        _ ≤ 2 ^ 54 := Nat.pow_le_pow_right (by decide) (by omega)
    have hround := divEven_le (n * Nat.pow 2 (-e).toNat) 1
    rw [Nat.div_one] at hround
    exact Nat.le_trans hround hscaled
  · have hscaled : n < 2 ^ 54 * 2 ^ e.toNat :=
      calc n < 2 ^ (n.log2 + 1) := hn
        _ ≤ 2 ^ (54 + e.toNat) := Nat.pow_le_pow_right (by decide) (by omega)
        _ = 2 ^ 54 * 2 ^ e.toNat := Nat.pow_add _ _ _
    have hround := divEven_le n (1 * Nat.pow 2 e.toNat)
    rw [Nat.one_mul] at hround ⊢
    exact Nat.le_trans hround ((Nat.div_lt_iff_lt_mul (Nat.two_pow_pos _)).2 hscaled)

theorem isFinite_of_lt {k : Nat} (h : k < infinityBits) :
    (Binary64.mk (min infinityBits k).toUInt64).isFinite = true := by
  have hinfinity : infinityBits < Nat.pow 2 63 := by decide
  have hk : (min infinityBits k).toUInt64.toNat = k := by
    rw [Nat.min_eq_right (Nat.le_of_lt h)]
    exact UInt64.toNat_ofNat_of_lt' (Nat.lt_trans (Nat.lt_trans h hinfinity) (by decide))
  rw [isFinite, magnitude, hk, Nat.mod_eq_of_lt (Nat.lt_trans h hinfinity)]
  exact decide_eq_true h

theorem isFinite_ofRatio_one {n : Nat} (h : n < UInt64.size) : (ofRatio n 1).isFinite = true := by
  by_cases hzero : n = 0
  · subst hzero
    rfl
  · have hlog : n.log2 < 64 := (Nat.log2_lt hzero).2 h
    obtain ⟨hlow, hhigh⟩ := scaleFor_one n
    have hmantissa := mantissa_le hlow
    have hscale : (scaleFor n 1 + 1074).toNat ≤ 1085 := by omega
    rw [ofRatio, if_neg hzero]
    apply isFinite_of_lt
    calc (scaleFor n 1 + 1074).toNat * Nat.pow 2 52 + _
        ≤ 1085 * Nat.pow 2 52 + 2 ^ 54 :=
          Nat.add_le_add (Nat.mul_le_mul_right _ hscale) hmantissa
      _ < infinityBits := by decide

end Binary64

theorem Numeral.isFinite_ofNat {n : Nat} (h : n < UInt64.size) :
    (Numeral.ofNat n).isFinite = true := by
  have hlength : (Nat.toDigits 10 n).length ≤ 20 :=
    (Nat.length_toDigits_le_iff (by decide) (by decide)).2 (Nat.lt_trans h (by decide))
  change (Binary64.ofDecimal n 0).isFinite = true
  simp only [Binary64.ofDecimal]
  split
  · rfl
  · have hpow : n * Nat.pow 10 (0 : Int).toNat = n := Nat.mul_one n
    rw [if_neg (by omega), if_neg (by decide), hpow]
    exact Binary64.isFinite_ofRatio_one h

end ScriptLens
