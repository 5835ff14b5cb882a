import ParallelTests.Decimal.Basic
import ParallelTests.Toml.Value

namespace ParallelTests.Toml

abbrev Read (α : Type) := Option (α × List Char)

inductive Fault
  | malformed
  | tooManyDigits
  deriving DecidableEq, Repr

abbrev Parsed (α : Type) := Except Fault (α × List Char)

def Parsed.ofRead {α : Type} : Read α → Parsed α
  | some r => .ok r
  | none => .error .malformed

def isBlank (c : Char) : Bool := c = ' ' || c = '\t'

def isBlankOrNewline (c : Char) : Bool := isBlank c || c = '\n'

def skipBlank (cs : List Char) : List Char := cs.dropWhile isBlank

def isControl (c : Char) : Bool := (c.toNat < 0x20 && c ≠ '\t') || c.toNat = 0x7f

def skipComment : List Char → Option (List Char)
  | '#' :: cs => if (cs.takeWhile (· ≠ '\n')).any isControl then none else some (cs.dropWhile (· ≠ '\n'))
  | cs => some cs

def isHexDigit (c : Char) : Bool :=
  c.isDigit || ('a' ≤ c && c ≤ 'f') || ('A' ≤ c && c ≤ 'F')

def digitValue (c : Char) : Nat :=
  if c.isDigit then c.toNat - 48 else if 'a' ≤ c then c.toNat - 87 else c.toNat - 55

def numeral (base : Nat) (cs : List Char) : Nat := cs.foldl (fun n c => n * base + digitValue c) 0

def hexChar (width : Nat) (cs : List Char) : Read (List Char) :=
  let digits := cs.take width
  let n := numeral 16 digits
  if digits.length = width && digits.all isHexDigit && n.isValidChar then
    some ([Char.ofNat n], cs.drop width)
  else none

def escape (multiline : Bool) : List Char → Read (List Char)
  | [] => none
  | c :: cs =>
    if multiline && c = '\n' then some ([], cs.dropWhile isBlankOrNewline)
    else if multiline && isBlank c then
      match skipBlank cs with
      | [] => some ([], [])
      | '\n' :: rest => some ([], rest.dropWhile isBlankOrNewline)
      | _ => none
    else
      match c with
      | 'u' => hexChar 4 cs
      | 'U' => hexChar 8 cs
      | 'b' => some (['\x08'], cs)
      | 't' => some (['\t'], cs)
      | 'n' => some (['\n'], cs)
      | 'f' => some (['\x0c'], cs)
      | 'r' => some (['\r'], cs)
      | '"' => some (['"'], cs)
      | '\\' => some (['\\'], cs)
      | _ => none

def basicString (multiline : Bool) (cs : List Char) : Read (List Char) :=
  match cs with
  | [] => none
  | '"' :: rest =>
    if !multiline then some ([], rest)
    else if ['"', '"'].isPrefixOf rest then some ([], rest.drop 2)
    else (basicString multiline rest).map fun (text, rest) => ('"' :: text, rest)
  | '\\' :: rest =>
    match escape multiline rest with
    | none => none
    | some (here, after) =>
      if after.length ≤ rest.length then
        (basicString multiline after).map fun (text, rest) => (here ++ text, rest)
      else none
  | c :: rest =>
    if isControl c && !(multiline && c = '\n') then none
    else (basicString multiline rest).map fun (text, rest) => (c :: text, rest)
termination_by cs.length

def literalString (cs : List Char) : Read (List Char) :=
  let text := cs.takeWhile (· ≠ '\'')
  match cs.dropWhile (· ≠ '\'') with
  | [] => none
  | _ :: rest => if text.any isControl then none else some (text, rest)

def untilQuotes : List Char → Read (List Char)
  | [] => none
  | '\'' :: '\'' :: '\'' :: rest => some ([], rest)
  | c :: cs => (untilQuotes cs).map fun (text, rest) => (c :: text, rest)

def extraQuotes (mark : Char) : List Char → List Char × List Char
  | a :: b :: cs =>
    if a = mark && b = mark then ([mark, mark], cs)
    else if a = mark then ([mark], b :: cs)
    else ([], a :: b :: cs)
  | [a] => if a = mark then ([mark], []) else ([], [a])
  | [] => ([], [])

def dropNewline : List Char → List Char
  | '\n' :: cs => cs
  | cs => cs

def longBasicString (cs : List Char) : Read (List Char) :=
  match basicString true (dropNewline cs) with
  | none => none
  | some (text, rest) =>
    let (more, rest) := extraQuotes '"' rest
    some (text ++ more, rest)

def longLiteralString (cs : List Char) : Read (List Char) :=
  match untilQuotes (dropNewline cs) with
  | none => none
  | some (text, rest) =>
    if text.any fun c => isControl c && c ≠ '\n' then none
    else
      let (more, rest) := extraQuotes '\'' rest
      some (text ++ more, rest)

def string : List Char → Read (List Char)
  | '"' :: '"' :: '"' :: cs => longBasicString cs
  | '"' :: cs => basicString false cs
  | '\'' :: '\'' :: '\'' :: cs => longLiteralString cs
  | '\'' :: cs => literalString cs
  | _ => none

def moreDigits (digit : Char → Bool) : List Char → List Char × List Char
  | '_' :: d :: cs =>
    if digit d then
      let (ds, rest) := moreDigits digit cs
      (d :: ds, rest)
    else ([], '_' :: d :: cs)
  | c :: cs =>
    if digit c then
      let (ds, rest) := moreDigits digit cs
      (c :: ds, rest)
    else ([], c :: cs)
  | [] => ([], [])

def digits (digit : Char → Bool) : List Char → Read (List Char)
  | c :: cs =>
    if digit c then
      let (ds, rest) := moreDigits digit cs
      some (c :: ds, rest)
    else none
  | [] => none

def based (base : Nat) (digit : Char → Bool) (cs : List Char) : Read Int :=
  (digits digit cs).map fun (ds, rest) => ((numeral base ds : Nat), rest)

def basedNumber : List Char → Read Int
  | '0' :: 'x' :: cs => based 16 isHexDigit cs
  | '0' :: 'b' :: cs => based 2 (fun c => c = '0' || c = '1') cs
  | '0' :: 'o' :: cs => based 8 (fun c => '0' ≤ c && c ≤ '7') cs
  | _ => none

def sign : List Char → Int × List Char
  | '+' :: cs => (1, cs)
  | '-' :: cs => (-1, cs)
  | cs => (1, cs)

def whole : List Char → Read (List Char)
  | '0' :: cs => some (['0'], cs)
  | cs => digits Char.isDigit cs

def fraction : List Char → Option (List Char)
  | '.' :: cs => (digits Char.isDigit cs).map (·.2)
  | _ => none

def exponent : List Char → Option (List Char)
  | 'e' :: cs | 'E' :: cs => (digits Char.isDigit (sign cs).2).map (·.2)
  | _ => none

abbrev Form := Read (Except Fault Value)

def integer (factor : Int) (ds : List Char) : Except Fault Value :=
  if Decimal.maxDigits < ds.length then .error .tooManyDigits
  else .ok (.integer (factor * numeral 10 ds))

def decimal (cs : List Char) : Form :=
  let (factor, rest) := sign cs
  match whole rest with
  | none => none
  | some (ds, rest) =>
    match fraction rest with
    | some rest => some (.ok .float, (exponent rest).getD rest)
    | none =>
      match exponent rest with
      | some rest => some (.ok .float, rest)
      | none => some (integer factor ds, rest)

def number (cs : List Char) : Form :=
  match basedNumber cs with
  | some (n, rest) => some (.ok (.integer n), rest)
  | none => decimal cs

def special (cs : List Char) : Form :=
  let rest := (sign cs).2
  if ['i', 'n', 'f'].isPrefixOf rest || ['n', 'a', 'n'].isPrefixOf rest then
    some (.ok .float, rest.drop 3)
  else none

def twoDigits (low high : Nat) : List Char → Read Nat
  | a :: b :: cs =>
    let n := numeral 10 [a, b]
    if a.isDigit && b.isDigit && low ≤ n && n ≤ high then some (n, cs) else none
  | _ => none

def mark (c : Char) : List Char → Option (List Char)
  | d :: cs => if c = d then some cs else none
  | [] => none

def fractionOfSecond : List Char → List Char
  | '.' :: d :: cs => if d.isDigit then cs.dropWhile Char.isDigit else '.' :: d :: cs
  | cs => cs

def clock (cs : List Char) : Option (List Char) := do
  let (_, cs) ← twoDigits 0 23 cs
  let cs ← mark ':' cs
  let (_, cs) ← twoDigits 0 59 cs
  let cs ← mark ':' cs
  let (_, cs) ← twoDigits 0 59 cs
  return fractionOfSecond cs

def offset (cs : List Char) : List Char :=
  match cs with
  | 'Z' :: rest | 'z' :: rest => rest
  | '+' :: rest | '-' :: rest =>
    let shift : Option (List Char) := do
      let (_, rest) ← twoDigits 0 23 rest
      let rest ← mark ':' rest
      let (_, rest) ← twoDigits 0 59 rest
      return rest
    shift.getD cs
  | _ => cs

def isLeap (year : Nat) : Bool := (year % 4 = 0 && year % 100 ≠ 0) || year % 400 = 0

def daysIn (year month : Nat) : Nat :=
  if month = 2 then (if isLeap year then 29 else 28)
  else if month = 4 || month = 6 || month = 9 || month = 11 then 30
  else 31

def calendar (cs : List Char) : Option ((Nat × Nat × Nat) × List Char) := do
  let year := cs.take 4
  if year.length = 4 && year.all Char.isDigit then
    let cs ← mark '-' (cs.drop 4)
    let (month, cs) ← twoDigits 1 12 cs
    let cs ← mark '-' cs
    let (day, cs) ← twoDigits 1 31 cs
    return ((numeral 10 year, month, day), cs)
  else none

def timeOfDate : List Char → Option (List Char)
  | 'T' :: cs | 't' :: cs | ' ' :: cs => (clock cs).map offset
  | _ => none

def moment (cs : List Char) : Form :=
  match calendar cs with
  | none => none
  | some ((year, month, day), cs) =>
    let checked (v : Value) : Except Fault Value :=
      if 1 ≤ year && day ≤ daysIn year month then .ok v else .error .malformed
    match timeOfDate cs with
    | some rest => some (checked .dateTime, rest)
    | none => some (checked .date, cs)

def timeOfDay (cs : List Char) : Form := (clock cs).map fun rest => (.ok .time, rest)

def scalar (cs : List Char) : Parsed Value :=
  match (moment cs).or ((timeOfDay cs).or ((number cs).or (special cs))) with
  | some (.ok v, rest) => .ok (v, rest)
  | some (.error e, _) => .error e
  | none => .error .malformed

end ParallelTests.Toml
