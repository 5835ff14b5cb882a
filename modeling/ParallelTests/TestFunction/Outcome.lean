namespace ParallelTests

inductive Status
  | ignored
  | simpleParallelized
  | subtestParallelized
  | tableFixed
  | aborted
  deriving DecidableEq, Repr

namespace Status

def all : List Status :=
  [ignored, simpleParallelized, subtestParallelized, tableFixed, aborted]

def text : Status → String
  | ignored => "ignored"
  | simpleParallelized => "simple_parallelized"
  | subtestParallelized => "subtest_parallelized"
  | tableFixed => "table_fixed"
  | aborted => "rewrite_aborted"

def ofText? (text : String) : Option Status := all.find? (·.text = text)

def isChanged : Status → Bool
  | simpleParallelized | subtestParallelized | tableFixed => true
  | ignored | aborted => false

end Status

structure Outcome where
  path : String
  function : String
  status : Status
  messages : List String := []
  deriving DecidableEq, Repr

structure UnitReport where
  unitId : String
  files : List String := []
  functions : List Outcome := []
  deriving DecidableEq, Repr

namespace UnitReport

def count (r : UnitReport) (s : Status) : Nat := r.functions.countP (·.status = s)

def counts (r : UnitReport) : List (Status × Nat) := Status.all.map fun s => (s, r.count s)

def aborted (r : UnitReport) : List Outcome := r.functions.filter (·.status = .aborted)

def summary (r : UnitReport) : String :=
  match r.counts.filter (·.2 ≠ 0) with
  | [] => "no functions"
  | counts => ", ".intercalate (counts.map fun c => c.1.text ++ "=" ++ toString c.2)

end UnitReport

end ParallelTests
