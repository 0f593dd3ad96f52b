/-!
# Rounding to a number of significant bits

Counters are shown as numbers with a significand of 53 bits. A number that needs more is
replaced by the nearest one that does not; of two equally near ones the one with an even
significand is taken. Such numbers also have a greatest one.
-/

namespace W65C02

/-- The multiple of a unit that is nearest to a number; halfway between two multiples, the
even one. -/
def nearestMultiple (unit n : Nat) : Nat :=
  let quotient := n / unit
  let remainder := n % unit
  if unit < 2 * remainder ∨ (2 * remainder = unit ∧ quotient % 2 = 1) then
    (quotient + 1) * unit
  else quotient * unit

/-- The nearest number whose binary digits beyond the given count, from the first on, are all
zero. -/
def roundToBits (bits n : Nat) : Nat :=
  if n < Nat.pow 2 bits then n else nearestMultiple (Nat.pow 2 (n.log2 + 1 - bits)) n

/-- The nearest number with a significand of 53 bits. -/
def roundToDouble (n : UInt64) : Nat := roundToBits 53 n.toNat

/-- Whether a significand times a power of ten is beyond the greatest double. The factors are
rounded before they are multiplied. The product is beyond if it is nearer to `2 ^ 1024` than to
the greatest double, or just between them; no power past `10 ^ 308` is within. -/
def exceedsDoubles (significand power : Nat) : Bool :=
  significand != 0 && (308 < power ||
    Nat.pow 2 1024 - Nat.pow 2 970 ≤
      roundToBits 53 significand * roundToBits 53 (Nat.pow 10 power))

end W65C02
