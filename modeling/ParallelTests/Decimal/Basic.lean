namespace ParallelTests

structure Decimal where
  negative : Bool := false
  digits : Nat
  exponent : Int := 0
  deriving DecidableEq, Repr

namespace Decimal

def maxDigits : Nat := 4300

def roundDiv (num den : Nat) : Nat :=
  let quotient := num / den
  let rest := 2 * (num % den)
  if rest < den || (rest = den && quotient % 2 = 0) then quotient else quotient + 1

def scaled (base : Nat) (exponent : Int) (num den : Nat) : Nat × Nat :=
  (num * base.pow (-exponent).toNat, den * base.pow exponent.toNat)

def ratio (d : Decimal) : Nat × Nat := scaled 10 (-d.exponent) d.digits 1

end Decimal

end ParallelTests
