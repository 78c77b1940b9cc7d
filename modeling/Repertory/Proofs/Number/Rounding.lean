import Repertory.Number.Binary64

/-!
# Rounding of integers

The number nearest to an integer grows with the integer (`Binary64.key_ofInt_mono`), so a comparison
with a rounded integer errs only by a tie. The magnitude of a positive integer is its significand,
rounded to 53 bits, on top of its exponent: with the same exponent the significand decides, and the
next exponent begins where the greatest significand of the one before ends.
-/

namespace Repertory
namespace Binary64

/-! ## The nearest quotient -/

theorem div_le_divNearest (num den : Nat) : num / den ≤ divNearest num den := by
  rw [divNearest]
  split
  · omega
  · split
    · omega
    · split <;> omega

theorem divNearest_le (num den : Nat) : divNearest num den ≤ num / den + 1 := by
  rw [divNearest]
  split
  · omega
  · split
    · omega
    · split <;> omega

theorem divNearest_mono {a b : Nat} (h : a ≤ b) (den : Nat) :
    divNearest a den ≤ divNearest b den := by
  rcases Nat.lt_or_eq_of_le (Nat.div_le_div_right (c := den) h) with hlt | heq
  · have ha : divNearest a den ≤ a / den + 1 := divNearest_le a den
    have hb : b / den ≤ divNearest b den := div_le_divNearest b den
    omega
  · -- With the same quotient the remainders decide.
    have ha : den * (a / den) + a % den = a := Nat.div_add_mod a den
    have hb : den * (b / den) + b % den = b := Nat.div_add_mod b den
    rw [heq] at ha
    have hmod : a % den ≤ b % den := by omega
    rw [divNearest, divNearest, heq]
    grind

theorem divNearest_mul (n : Nat) {den : Nat} (hden : 0 < den) : divNearest (n * den) den = n := by
  rw [divNearest, Nat.mul_div_cancel n hden, Nat.mul_mod_left]
  simp [hden]

/-! ## Magnitudes of naturals -/

theorem floorLog2_one {n : Nat} (h : n ≠ 0) : floorLog2 n 1 = Nat.log2 n := by
  have hlog : Nat.log2 1 = 0 := by decide
  have hpow : 2 ^ Nat.log2 n ≤ n := Nat.log2_self_le h
  rw [floorLog2, hlog]
  simp [hpow]

/-- The significand of a positive number with 53 bits, the first of them set. -/
def significandOf (n : Nat) : Nat :=
  divNearest (n * Nat.pow 2 (52 - Nat.log2 n)) (Nat.pow 2 (Nat.log2 n - 52))

theorem roundRatio_one {n : Nat} (h : n ≠ 0) :
    roundRatio n 1 =
      min infinityMagnitude ((Nat.log2 n + 1022) * fractionSize + significandOf n) := by
  have hq : max ((Nat.log2 n : Int) - 52) (-1074) = (Nat.log2 n : Int) - 52 := by omega
  have hexponent : ((Nat.log2 n : Int) - 52 + 1074).toNat = Nat.log2 n + 1022 := by omega
  have hup : (-((Nat.log2 n : Int) - 52)).toNat = 52 - Nat.log2 n := by omega
  have hdown : ((Nat.log2 n : Int) - 52).toNat = Nat.log2 n - 52 := by omega
  rw [roundRatio, if_neg h, floorLog2_one h]
  dsimp only
  rw [hq, hexponent, hup, hdown, Nat.one_mul]
  rfl

/-- A power of two, on the scale of the significand and on that of the number. -/
theorem two_pow_scaled (k n : Nat) :
    Nat.pow 2 (52 + k) * Nat.pow 2 (Nat.log2 n - 52) =
      Nat.pow 2 (Nat.log2 n + k) * Nat.pow 2 (52 - Nat.log2 n) := by
  have hexponent : 52 + k + (Nat.log2 n - 52) = Nat.log2 n + k + (52 - Nat.log2 n) := by omega
  calc Nat.pow 2 (52 + k) * Nat.pow 2 (Nat.log2 n - 52)
      = Nat.pow 2 (52 + k + (Nat.log2 n - 52)) := (Nat.pow_add 2 _ _).symm
    _ = Nat.pow 2 (Nat.log2 n + k + (52 - Nat.log2 n)) := by rw [hexponent]
    _ = Nat.pow 2 (Nat.log2 n + k) * Nat.pow 2 (52 - Nat.log2 n) := Nat.pow_add 2 _ _

theorem fractionSize_le_significandOf {n : Nat} (h : n ≠ 0) : fractionSize ≤ significandOf n := by
  have hpow : 2 ^ Nat.log2 n ≤ n := Nat.log2_self_le h
  have hscaled : fractionSize * 2 ^ (Nat.log2 n - 52) ≤ n * 2 ^ (52 - Nat.log2 n) := by
    calc fractionSize * 2 ^ (Nat.log2 n - 52)
        = 2 ^ Nat.log2 n * 2 ^ (52 - Nat.log2 n) := two_pow_scaled 0 n
      _ ≤ n * 2 ^ (52 - Nat.log2 n) := Nat.mul_le_mul_right _ hpow
  rw [← divNearest_mul fractionSize (Nat.two_pow_pos (Nat.log2 n - 52))]
  exact divNearest_mono hscaled _

theorem significandOf_le (n : Nat) : significandOf n ≤ 2 * fractionSize := by
  have hpow : n ≤ 2 ^ (Nat.log2 n + 1) := Nat.le_of_lt Nat.lt_log2_self
  have hscaled : n * 2 ^ (52 - Nat.log2 n) ≤ 2 * fractionSize * 2 ^ (Nat.log2 n - 52) := by
    calc n * 2 ^ (52 - Nat.log2 n)
        ≤ 2 ^ (Nat.log2 n + 1) * 2 ^ (52 - Nat.log2 n) := Nat.mul_le_mul_right _ hpow
      _ = 2 * fractionSize * 2 ^ (Nat.log2 n - 52) := (two_pow_scaled 1 n).symm
  rw [← divNearest_mul (2 * fractionSize) (Nat.two_pow_pos (Nat.log2 n - 52))]
  exact divNearest_mono hscaled _

theorem roundRatio_one_mono {m n : Nat} (h : m ≤ n) : roundRatio m 1 ≤ roundRatio n 1 := by
  by_cases hm : m = 0
  · subst hm
    exact Nat.zero_le _
  have hn : n ≠ 0 := by omega
  have hlog : Nat.log2 m ≤ Nat.log2 n :=
    (Nat.le_log2 hn).mpr (Nat.le_trans (Nat.log2_self_le hm) h)
  have hsum : (Nat.log2 m + 1022) * fractionSize + significandOf m ≤
      (Nat.log2 n + 1022) * fractionSize + significandOf n := by
    rcases Nat.lt_or_eq_of_le hlog with hlt | heq
    · -- The next exponent begins where the significands of this one end.
      have hup : significandOf m ≤ 2 * fractionSize := significandOf_le m
      have hdown : fractionSize ≤ significandOf n := fractionSize_le_significandOf hn
      have hweight : (Nat.log2 m + 1 + 1022) * fractionSize ≤ (Nat.log2 n + 1022) * fractionSize :=
        Nat.mul_le_mul_right _ (by omega)
      simp only [Nat.add_mul] at hweight ⊢
      omega
    · have hsignificand : significandOf m ≤ significandOf n := by
        rw [significandOf, significandOf, heq]
        exact divNearest_mono (Nat.mul_le_mul_right _ h) _
      rw [heq]
      omega
  rw [roundRatio_one hm, roundRatio_one hn]
  omega

theorem roundRatio_one_le (n : Nat) : roundRatio n 1 ≤ infinityMagnitude := by
  by_cases h : n = 0
  · subst h
    decide
  · rw [roundRatio_one h]
    exact Nat.min_le_left _ _

/-! ## Integers -/

theorem key_ofInt (n : Int) :
    (ofInt n).key =
      if n < 0 then -(roundRatio n.natAbs 1 : Int) - 1 else roundRatio n.natAbs 1 := by
  have hrange : roundRatio n.natAbs 1 < 0x8000000000000000 :=
    Nat.lt_of_le_of_lt (roundRatio_one_le n.natAbs) (by decide)
  rw [ofInt, ofMagnitude, dif_pos hrange, key]
  by_cases hn : n < 0 <;> simp [hn]

/-- A greater integer is not rounded to a smaller number. -/
theorem key_ofInt_mono {m n : Int} (h : m ≤ n) : (ofInt m).key ≤ (ofInt n).key := by
  rw [key_ofInt, key_ofInt]
  by_cases hm : m < 0
  · by_cases hn : n < 0
    · have habs : roundRatio n.natAbs 1 ≤ roundRatio m.natAbs 1 := roundRatio_one_mono (by omega)
      rw [if_pos hm, if_pos hn]
      omega
    · rw [if_pos hm, if_neg hn]
      omega
  · have hn : ¬n < 0 := by omega
    have habs : roundRatio m.natAbs 1 ≤ roundRatio n.natAbs 1 := roundRatio_one_mono (by omega)
    rw [if_neg hm, if_neg hn]
    omega

end Binary64
end Repertory
