import ParallelTests.Decimal.Double

namespace ParallelTests

namespace Double

def enoughDigits : Nat := 17

def pointOf (num den : Nat) : Int :=
  if den ≤ num then (Nat.toDigits 10 (num / den)).length
  else 1 - ((Nat.toDigits 10 (den / num)).length : Int)

def neighbours (num den : Nat) (grid : Int) : List Decimal :=
  let (n, d) := Decimal.scaled 10 grid num den
  let below := n / d
  let order := if Decimal.roundDiv n d = below then [below, below + 1] else [below + 1, below]
  order.map fun digits => { digits, exponent := grid }

def shortest? (significand : Nat) (exponent : Int) : Option Decimal :=
  let (num, den) := Decimal.scaled 2 (-exponent) significand 1
  let point := pointOf num den
  (List.range enoughDigits).findSome? fun (n : Nat) =>
    (neighbours num den (point - (n + 1))).find? fun d => d.double = finite significand exponent

end Double

namespace Decimal

def isPositional (point : Int) : Bool := decide (-4 < point ∧ point ≤ 16)

def zeros (n : Nat) : List Char := List.replicate n '0'

def positional (digits : List Char) (point : Int) : List Char :=
  if point ≤ 0 then ['0', '.'] ++ zeros (-point).toNat ++ digits
  else
    let before := point.toNat
    let whole := digits.take before ++ zeros (before - digits.length)
    whole ++ '.' :: (if digits.length ≤ before then ['0'] else digits.drop before)

def exponentText (n : Int) : List Char :=
  let digits := Nat.toDigits 10 n.natAbs
  'e' :: (if n < 0 then '-' else '+') :: (zeros (2 - digits.length) ++ digits)

def scientific (digits : List Char) (point : Int) : List Char :=
  let mantissa :=
    match digits with
    | [] => []
    | [d] => [d]
    | d :: ds => d :: '.' :: ds
  mantissa ++ exponentText (point - 1)

def layout (d : Decimal) : List Char :=
  let digits := Nat.toDigits 10 d.digits
  let point := d.exponent + digits.length
  let digits := (digits.reverse.dropWhile (· = '0')).reverse
  if isPositional point then positional digits point else scientific digits point

def shown (d : Decimal) : String :=
  let text :=
    match d.double with
    | .infinite => ['i', 'n', 'f']
    | .finite 0 _ => ['0', '.', '0']
    | .finite significand exponent => ((Double.shortest? significand exponent).getD d).layout
  String.ofList (if d.negative then '-' :: text else text)

end Decimal

end ParallelTests
