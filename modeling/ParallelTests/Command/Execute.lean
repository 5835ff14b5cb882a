import ParallelTests.Command.Arguments
import ParallelTests.Config.File
import ParallelTests.Log.Sink
import ParallelTests.Module.Load
import ParallelTests.Run.Dispatch
import ParallelTests.Run.Report

namespace ParallelTests.Command

/-- What the command calls that is not part of it: the reader of the command line, which refuses some,
the writer of lines for the user, and the writer of JSON. -/
class Outside extends Caught where
  arguments : List String → Option Arguments
  echo : String → String
  json : RunReport → String

inductive Failure
  | config (error : ConfigError)
  | load (error : LoadError)
  | run (error : RunError)
  | report (path : String)
  | badName (path : String)
  deriving DecidableEq, Repr

namespace Failure

def message [Caught] : Failure → String
  | config error => error.message
  | load error => error.message
  | run error => error.message
  | report path => Caught.explain "cannot write report " path
  | badName path => "no file can have the name " ++ Text.quoted path

/-- What is not foreseen of settings, of a module or of the report's name is no failure of the command's
own; all else is told in one line. -/
def isForeseen : Failure → Bool
  | config error => error.isForeseen
  | load error => error.isForeseen
  | run _ | report _ => true
  | badName _ => false

end Failure

structure Completed where
  failure : Option Failure
  writes : List String
  logged : List String
  files : FileSystem

namespace Completed

def exitCode (c : Completed) : Nat := if c.failure.isSome then 1 else 0

def output (c : Completed) : String := String.join c.writes

def told [Outside] (c : Completed) : List String :=
  c.logged ++ c.failure.toList.map fun f => Outside.echo ("parallelize: " ++ f.message)

end Completed

def settings (fs : FileSystem) (a : Arguments) : Except ConfigError Config := do
  let c ← Config.resolve fs (some a.moduleDir) a.config
  c.withOverrides a.overrides

def sink (c : Config) : Log.Sink := .openAt ((Log.rankOf? c.logLevel).getD 0)

variable [Outside]

def writeReport (fs : FileSystem) (a : Arguments) (reports : List UnitReport) :
    Except Failure FileSystem :=
  match a.report with
  | none => .ok fs
  | some path =>
    if path.hasZero then .error (.badName path.text)
    else
      match fs.write? path (Outside.json (.ofUnits reports) ++ "\n") with
      | some fs => .ok fs
      | none => .error (.report path.text)

def process (fs : FileSystem) (a : Arguments) (c : Config) (loading : List Log.Record)
    (units : List CompilationUnit) : Completed :=
  let done := Dispatch.run c {} units
  let logged := (sink c).lines (loading ++ done.records)
  match done.result with
  | .error e => ⟨some (.run e), done.state, logged, fs⟩
  | .ok reports =>
    match writeReport fs a reports with
    | .ok after => ⟨none, done.state, logged, after⟩
    | .error e => ⟨some e, done.state, logged, fs⟩

def execute (fs : FileSystem) (a : Arguments) : Completed :=
  match settings fs a with
  | .error e => ⟨some (.config e), [], [], fs⟩
  | .ok c =>
    let loading := Module.load fs c {} a.moduleDir
    match loading.result with
    | .error e => ⟨some (.load e), [], (sink c).lines loading.records, fs⟩
    | .ok units => process fs a c loading.records units

end ParallelTests.Command
