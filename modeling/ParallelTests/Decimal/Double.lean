import ParallelTests.Decimal.Basic

namespace ParallelTests

inductive Double
  | finite (significand : Nat) (exponent : Int)
  | infinite
  deriving DecidableEq, Repr

namespace Double

def zero : Double := finite 0 0

def bound : Nat := 1 <<< 53

def leastExponent : Int := -1074

def greatestExponent : Int := 971

def normalize (significand : Nat) (exponent : Int) : Double :=
  let (significand, exponent) :=
    if significand = bound then (bound / 2, exponent + 1) else (significand, exponent)
  if significand = 0 then zero
  else if greatestExponent < exponent then infinite
  else finite significand exponent

def exponentOf (num den : Nat) : Int :=
  let low := (num.log2 : Int) - den.log2 - 53
  let (n, d) := Decimal.scaled 2 low num den
  max leastExponent (if bound ≤ n / d then low + 1 else low)

def ofRatio (num den : Nat) : Double :=
  if num = 0 then zero
  else
    let exponent := exponentOf num den
    let (n, d) := Decimal.scaled 2 exponent num den
    normalize (Decimal.roundDiv n d) exponent

end Double

def Decimal.double (d : Decimal) : Double :=
  if d.digits = 0 || d.exponent + d.digits.log2 < -400 then .zero
  else if 400 < d.exponent then .infinite
  else
    let (num, den) := d.ratio
    .ofRatio num den

end ParallelTests
