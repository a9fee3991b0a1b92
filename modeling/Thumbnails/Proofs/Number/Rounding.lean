import Thumbnails.Number.Rounding

/-!
# How far rounding goes

Rounding to 53 bits moves a number by at most half the distance between its neighbours, and that
distance is a small part of the number, or one. The bounds are stated for products with the divisor
(`Rounding.nearest_close`), because the quotients themselves are not whole.
-/

namespace Thumbnails

namespace Rounding

variable {divisor : Nat}

/-- The least number with 53 significant bits. -/
def leastSignificand : Nat :=
  Nat.pow 2 52

theorem leastSignificand_eq : leastSignificand = 4503599627370496 :=
  rfl

/-- The whole number that is chosen is at most half away from the quotient. -/
theorem toEven_close (dividend : Nat) (positive : 0 < divisor) :
    2 * (toEven dividend divisor * divisor) ≤ 2 * dividend + divisor ∧
      2 * dividend ≤ 2 * (toEven dividend divisor * divisor) + divisor := by
  have whole : dividend / divisor * divisor + dividend % divisor = dividend :=
    Nat.div_add_mod' dividend divisor
  have remainder : dividend % divisor < divisor := Nat.mod_lt _ positive
  have above : (dividend / divisor + 1) * divisor = dividend / divisor * divisor + divisor :=
    Nat.succ_mul _ _
  unfold toEven
  dsimp only
  split
  · omega
  split
  · omega
  · omega

theorem spacing_pos (number : Nat) : 0 < spacing number :=
  Nat.pow_pos (by decide)

/-- The neighbours of a number are one apart, or no further than a small part of the number. -/
theorem spacing_le (number : Nat) :
    leastSignificand * spacing number ≤ number + leastSignificand := by
  by_cases small : number < leastSignificand
  · have bits : number.log2 - 52 = 0 := by
      by_cases zero : number = 0
      · simp [zero]
      · have below : number.log2 < 52 := (Nat.log2_lt zero).mpr small
        omega
    have single : spacing number = 1 := by
      rw [spacing, bits, Nat.pow]
    rw [single]
    omega
  · have positive : number ≠ 0 := by
      rintro rfl
      exact small (by decide)
    have bits : 52 ≤ number.log2 := (Nat.le_log2 positive).mpr (Nat.le_of_not_lt small)
    calc leastSignificand * spacing number
        = Nat.pow 2 (52 + (number.log2 - 52)) := (Nat.pow_add 2 52 (number.log2 - 52)).symm
      _ = Nat.pow 2 number.log2 := by rw [Nat.add_sub_cancel' bits]
      _ ≤ number := Nat.log2_self_le positive
      _ ≤ number + leastSignificand := Nat.le_add_right _ _

/-- A rounded quotient is close to the quotient. -/
theorem nearest_close (dividend : Nat) (positive : 0 < divisor) :
    2 * (leastSignificand * (nearest dividend divisor * divisor)) ≤
        2 * (leastSignificand * dividend) + dividend + leastSignificand * divisor ∧
      2 * (leastSignificand * dividend) ≤
        2 * (leastSignificand * (nearest dividend divisor * divisor)) + dividend +
          leastSignificand * divisor := by
  have close := toEven_close dividend
    (Nat.mul_pos positive (spacing_pos (dividend / divisor)))
  have regroup : nearest dividend divisor * divisor =
      toEven dividend (divisor * spacing (dividend / divisor)) *
        (divisor * spacing (dividend / divisor)) := by
    rw [nearest, Nat.mul_comm (spacing _), Nat.mul_assoc, Nat.mul_comm (spacing _)]
  -- The distance of neighbours, brought to the scale of the dividend.
  have distance : leastSignificand * (divisor * spacing (dividend / divisor)) ≤
      dividend + leastSignificand * divisor :=
    calc leastSignificand * (divisor * spacing (dividend / divisor))
        = divisor * (leastSignificand * spacing (dividend / divisor)) := Nat.mul_left_comm _ _ _
      _ ≤ divisor * (dividend / divisor + leastSignificand) :=
          Nat.mul_le_mul_left _ (spacing_le _)
      _ = divisor * (dividend / divisor) + leastSignificand * divisor := by
          rw [Nat.mul_add, Nat.mul_comm divisor leastSignificand]
      _ ≤ dividend + leastSignificand * divisor :=
          Nat.add_le_add_right (Nat.mul_div_le _ _) _
  rw [← regroup] at close
  rw [leastSignificand_eq] at distance ⊢
  omega

end Rounding

end Thumbnails
