import ParallelTests.Log.Basic
import ParallelTests.Text.Case

namespace ParallelTests.Log

def rankOf? (name : String) : Option Int :=
  match Text.upperCase name with
  | "CRITICAL" | "FATAL" => some 50
  | "ERROR" => some 40
  | "WARNING" | "WARN" => some 30
  | "INFO" => some 20
  | "DEBUG" => some 10
  | "NOTSET" => some 0
  | _ => none

structure Sink where
  threshold : Int := 0
  isOpen : Bool := false
  deriving DecidableEq, Repr

namespace Sink

def openAt (threshold : Int) : Sink := ⟨threshold, true⟩

def least (s : Sink) : Int := if s.threshold = 0 then Level.warning.rank else s.threshold

def admits (s : Sink) (r : Record) : Bool :=
  s.isOpen && isUnder r.source programName && decide (s.least ≤ r.level.rank)

def line (r : Record) : String := r.level.name ++ " " ++ r.source ++ ": " ++ r.message

def lines (s : Sink) (records : List Record) : List String :=
  (records.filter s.admits).map line

end Sink

end ParallelTests.Log
