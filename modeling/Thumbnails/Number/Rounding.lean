/-!
# Rounding to 53 bits

A number in binary64 has 53 significant bits. Here such numbers are natural multiples of some unit,
and results are rounded to the nearest of them, ties to the even one.
-/

namespace Thumbnails

namespace Rounding

/-- The whole number nearest to a quotient, an even one if two are. -/
def toEven (dividend divisor : Nat) : Nat :=
  let quotient := dividend / divisor
  let remainder := dividend % divisor
  if 2 * remainder < divisor then quotient
  else if 2 * remainder = divisor ∧ quotient % 2 = 0 then quotient
  else quotient + 1

/-- The distance between neighbouring numbers with 53 significant bits around a whole number. -/
def spacing (number : Nat) : Nat :=
  Nat.pow 2 (number.log2 - 52)

/-- The number with 53 significant bits that is nearest to a quotient. -/
def nearest (dividend divisor : Nat) : Nat :=
  let step := spacing (dividend / divisor)
  step * toEven dividend (divisor * step)

/-- The least number that is too large for binary64, because it is rounded to a power of two beyond
the largest one. -/
def overflow : Nat :=
  Nat.pow 2 1024 - Nat.pow 2 970

end Rounding

end Thumbnails
