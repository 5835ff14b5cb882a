import ParallelTests.Datum
import ParallelTests.Node.Basic

namespace ParallelTests

inductive Breach
  | noPrinter (kind : Kind)
  | unknownKind (kind : Kind)
  | told (reason : String) (env : List (String × String))
  deriving DecidableEq, Repr

namespace Breach

def reason : Breach → String
  | noPrinter _ => "no printer for node"
  | unknownKind _ => "unknown node kind in traversal"
  | told reason _ => if reason.isEmpty then "unreachable tree shape" else reason

def env : Breach → List (String × String)
  | noPrinter kind | unknownKind kind => [("kind", kind.name)]
  | told _ env => env

def message (b : Breach) : String :=
  match b.env with
  | [] => b.reason
  | env =>
    let sorted := env.mergeSort fun a b => decide (a.1 ≤ b.1)
    let pairs := sorted.map fun p => p.1 ++ "=" ++ p.2
    b.reason ++ " (" ++ ", ".intercalate pairs ++ ")"

def tell? (reason : String) (env : List (String × Datum)) : Option Breach :=
  if env.any (·.1 = "reason") then none
  else some (told reason (env.map fun p => (p.1, p.2.shown)))

end Breach

structure PrintError where
  root : Kind
  breach : Breach
  deriving DecidableEq, Repr

def PrintError.message (e : PrintError) : String :=
  "cannot print " ++ e.root.name ++ ": " ++ e.breach.message

end ParallelTests
