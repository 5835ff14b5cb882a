import ParallelTests.Text.CharClass
import ParallelTests.Token.Basic

namespace ParallelTests.Scan

open Text

inductive Class
  | newline
  | blank
  | comment
  | lexeme (lexeme : Lexeme)
  deriving DecidableEq, Repr

structure Item where
  kind : Class
  more : Nat
  deriving DecidableEq, Repr

inductive Failure
  | openComment
  | stray (c : Char)
  deriving DecidableEq, Repr

def isBlank (c : Char) : Bool :=
  c = ' ' || c = '\t' || c = '\r' || c = '\x0c' || c = '\x0b'

def runLength (p : Char → Bool) (cs : List Char) : Nat := (cs.takeWhile p).length

def blockLength : List Char → Option Nat
  | [] => none
  | '*' :: '/' :: _ => some 2
  | _ :: cs => (blockLength cs).map (· + 1)

def literalLength (mark : Char) : List Char → Option Nat
  | [] => none
  | '\\' :: _ :: cs => (literalLength mark cs).map (· + 2)
  | c :: cs =>
    if c = mark then some 1
    else if c = '\\' || c = '\n' then none
    else (literalLength mark cs).map (· + 1)

def runeLength (cs : List Char) : Option Nat :=
  if cs.head? = some '\'' then none else literalLength '\'' cs

def rawLength (cs : List Char) : Option Nat :=
  let n := runLength (· ≠ '\x60') cs
  if n < cs.length then some (n + 1) else none

def isNumeral (c : Char) : Bool := c.isDigit || c = '_'

def isHexNumeral (c : Char) : Bool :=
  c.isDigit || ('a' ≤ c && c ≤ 'f') || ('A' ≤ c && c ≤ 'F') || c = '_'

def signLength : List Char → Nat
  | '+' :: _ | '-' :: _ => 1
  | _ => 0

def fractionLength (digit : Char → Bool) : List Char → Nat
  | '.' :: cs => runLength digit cs + 1
  | _ => 0

def exponentLength (mark : Char → Bool) : List Char → Nat
  | [] => 0
  | c :: cs =>
    let sign := signLength cs
    let digits := runLength isNumeral (cs.drop sign)
    if mark c && 0 < digits then sign + digits + 1 else 0

def imaginaryLength : List Char → Nat
  | 'i' :: _ => 1
  | _ => 0

def isPowerMark (c : Char) : Bool := c = 'p' || c = 'P'

def isTenMark (c : Char) : Bool := c = 'e' || c = 'E'

def tailLength (digit mark : Char → Bool) (cs : List Char) : Nat :=
  let whole := runLength digit cs
  let fraction := fractionLength digit (cs.drop whole)
  let exponent := exponentLength mark (cs.drop (whole + fraction))
  let imaginary := imaginaryLength (cs.drop (whole + fraction + exponent))
  whole + fraction + exponent + imaginary

def pointTailLength (cs : List Char) : Nat :=
  let whole := runLength isNumeral cs
  let exponent := exponentLength isTenMark (cs.drop whole)
  whole + exponent + imaginaryLength (cs.drop (whole + exponent))

def basedLength (cs : List Char) : Option Nat :=
  let digits := runLength isNumeral cs
  if 0 < digits then some (digits + imaginaryLength (cs.drop digits)) else none

def numberLength (c : Char) (cs : List Char) : Nat :=
  if c = '.' then pointTailLength cs
  else
    match cs with
    | x :: rest =>
      if c = '0' && (x = 'x' || x = 'X') then tailLength isHexNumeral isPowerMark rest + 1
      else if c = '0' && (x = 'b' || x = 'B' || x = 'o' || x = 'O') then
        match basedLength rest with
        | some n => n + 1
        | none => tailLength isNumeral isTenMark cs
      else tailLength isNumeral isTenMark cs
    | [] => 0

def startsNumber (c : Char) (cs : List Char) : Bool :=
  c.isDigit || (c = '.' && cs.head?.any Char.isDigit)

def token (c : Char) (cs : List Char) (more : Nat) (make : String → Lexeme) : Item :=
  ⟨.lexeme (make (String.ofList (c :: cs.take more))), more⟩

def literal (c : Char) (cs : List Char) (make : String → Lexeme) :
    Option Nat → Except Failure Item
  | some more => .ok (token c cs more make)
  | none => .error (.stray c)

def operator (c : Char) (cs : List Char) : Except Failure Item :=
  match Operator.ofHead? (c :: cs) with
  | some o => .ok ⟨.lexeme (.op o), o.chars.length - 1⟩
  | none => .error (.stray c)

def first (c : Char) (cs : List Char) : Except Failure Item :=
  if c = '\n' then .ok ⟨.newline, 0⟩
  else if isBlank c then .ok ⟨.blank, runLength isBlank cs⟩
  else if c = '/' && cs.head? = some '/' then .ok ⟨.comment, runLength (· ≠ '\n') cs⟩
  else if c = '/' && cs.head? = some '*' then
    match blockLength cs.tail with
    | some n => .ok ⟨.comment, n + 1⟩
    | none => .error .openComment
  else if startsNumber c cs then .ok (token c cs (numberLength c cs) .number)
  else if isWordStart c then .ok (token c cs (runLength isWord cs) .ofWord)
  else if c = '\'' then literal c cs .rune (runeLength cs)
  else if c = '"' then literal c cs .string (literalLength '"' cs)
  else if c = '\x60' then literal c cs .string (rawLength cs)
  else if c = ';' then .ok ⟨.lexeme (.semicolon true), 0⟩
  else operator c cs

end ParallelTests.Scan
