import ParallelTests.Decimal.Basic
import ParallelTests.Text.Trim

/-!
Whole numbers as they are typed. Blanks around a number, a plus sign, zeros before it, single
underscores between its digits, and a point with nothing but zeros after it do not count.
-/

namespace ParallelTests.Text

def digitValue? (c : Char) : Option Nat :=
  if c.isDigit then some (c.toNat - '0'.toNat) else none

def digitsAfter? : List Char → Option (List Nat)
  | [] => some []
  | '_' :: c :: cs => (digitValue? c).bind fun d => (digitsAfter? cs).map (d :: ·)
  | c :: cs => (digitValue? c).bind fun d => (digitsAfter? cs).map (d :: ·)

def digits? : List Char → Option (List Nat)
  | [] => none
  | c :: cs => (digitValue? c).bind fun d => (digitsAfter? cs).map (d :: ·)

def dropZeros : List Char → List Char
  | '0' :: cs =>
    match cs.dropWhile fun c => c = '0' || c = '_' with
    | [] => [cs.getLastD '0']
    | rest => rest
  | cs => cs

def wholePart? (cs : List Char) : Option (List Char) :=
  if ((cs.dropWhile (· ≠ '.')).drop 1).all (· = '0') then some (cs.takeWhile (· ≠ '.')) else none

def natural? (cs : List Char) : Option Nat :=
  match (wholePart? cs).bind fun whole => digits? (dropZeros whole) with
  | some ds =>
    if ds.length ≤ Decimal.maxDigits then some (ds.foldl (fun n d => 10 * n + d) 0) else none
  | none => none

def isPadding (c : Char) : Bool := isSpace c && !(0x1c ≤ c.toNat && c.toNat ≤ 0x1f)

def integer? (s : String) : Option Int :=
  match (trim isPadding s).toList with
  | '-' :: cs => (natural? cs).map fun n => -(n : Int)
  | '+' :: cs => (natural? cs).map fun n => (n : Int)
  | cs => (natural? cs).map fun n => (n : Int)

end ParallelTests.Text
