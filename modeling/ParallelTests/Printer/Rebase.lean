import ParallelTests.Token.Scan

namespace ParallelTests

/-- The indentation that lines have, and the one they get. -/
structure Rebase where
  old : String
  new : String
  deriving DecidableEq, Repr

namespace Rebase

def isQuote (c : Char) : Bool := c = '"' || c = '\'' || c = '\x60'

def lines (old new : List Char) (quote : Option Char) : List Char → List Char
  | [] => []
  | c :: cs =>
    match quote with
    | none =>
      if c = '/' && cs.head? = some '/' then
        let n := Scan.runLength (· ≠ '\n') cs
        c :: (cs.take n ++ lines old new none (cs.drop n))
      else if c = '/' && cs.head? = some '*' then
        let n := ((Scan.blockLength cs.tail).map (· + 1)).getD cs.length
        c :: (cs.take n ++ lines old new none (cs.drop n))
      else if isQuote c then c :: lines old new (some c) cs
      else if c = '\n' && cs.head?.any (· ≠ '\n') && old.isPrefixOf cs then
        c :: (new ++ lines old new none (cs.drop old.length))
      else c :: lines old new none cs
    | some mark =>
      if c = '\\' && mark ≠ '\x60' then c :: (cs.take 1 ++ lines old new quote (cs.drop 1))
      else c :: lines old new (if c = mark then none else quote) cs
termination_by cs => cs.length
decreasing_by all_goals simp only [List.length_cons, List.length_drop]; omega

def apply (r : Rebase) (text : String) : String :=
  String.ofList (lines r.old.toList r.new.toList none text.toList)

end Rebase

end ParallelTests
