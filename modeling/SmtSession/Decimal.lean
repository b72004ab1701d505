/-!
# Decimal numbers

**A decimal number** is a sign, a natural number and a power of ten. It is how
numbers are written in options and on the command line; `Decimal.Binary64`
says what becomes of them as floating-point numbers.
-/

namespace SmtSession

/-- The number `mantissa * 10 ^ exponent`, or its negative. -/
structure Decimal where
  negative : Bool := false
  mantissa : Nat
  exponent : Int := 0
  deriving DecidableEq, Inhabited

namespace Decimal

/-- The decimal number of an integer. -/
def ofInt (n : Int) : Decimal :=
  { negative := n < 0, mantissa := n.natAbs }

/-- The value as a fraction, without its sign: numerator and denominator. -/
def fraction (d : Decimal) : Nat × Nat :=
  if d.exponent < 0 then (d.mantissa, Nat.pow 10 (-d.exponent).toNat)
  else (d.mantissa * Nat.pow 10 d.exponent.toNat, 1)

/-- The value in whole units of a number of parts, rounded down; negative
values count as zero. -/
def inUnits (d : Decimal) (parts : Nat) : Nat :=
  if d.negative then 0 else d.fraction.1 * parts / d.fraction.2

end Decimal

end SmtSession
