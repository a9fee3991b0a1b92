import Thumbnails.Number.Rounding

/-!
# Ratios in binary64

Scaling multiplies a side by the quotient of two sides, and both the quotient and the product are
rounded to 53 bits. All numbers that occur lie between `2 ^ -32` and `2 ^ 64`, so each of them is a
natural multiple of one fixed unit, `2 ^ -85`, and the arithmetic here is exact arithmetic on
natural numbers.
-/

namespace Thumbnails

/-- A number in binary64, as a multiple of `2 ^ -85`. -/
structure Ratio where
  units : Nat
  deriving DecidableEq, Repr

namespace Ratio

def one : Nat :=
  Nat.pow 2 85

/-- The rounded quotient of two sides. -/
def ofSides (dividend divisor : UInt32) : Ratio :=
  ⟨Rounding.nearest (dividend.toNat * one) divisor.toNat⟩

def least (left right : Ratio) : Ratio :=
  if left.units ≤ right.units then left else right

/-- The rounded product of a side and a ratio. -/
def scale (ratio : Ratio) (side : UInt32) : Ratio :=
  ⟨Rounding.nearest (side.toNat * ratio.units) 1⟩

/-- The whole number nearest to a ratio, the larger one if two are. -/
def round (ratio : Ratio) : Nat :=
  (2 * ratio.units + one) / (2 * one)

end Ratio

end Thumbnails
