import ParallelTests.Files.Caught
import ParallelTests.Text.Case
import ParallelTests.Text.Quoted
import ParallelTests.Text.Trim

namespace ParallelTests

structure Config where
  testPrefix : String := "Test"
  handleType : String := "testing.T"
  runMethod : String := "Run"
  parallelMethod : String := "Parallel"
  tableVar : String := "tests"
  caseVar : String := "tt"
  testFileSuffix : String := "_test.go"
  testUnitMarker : String := ".test]"
  recursive : Bool := false
  emitNonTestFiles : Bool := false
  maxWorkers : Option Int := none
  logLevel : String := "WARNING"
  deriving DecidableEq, Repr

inductive ConfigError
  | notFound (path : String)
  | unreadable (path : String)
  | notText (path : String)
  | badName (path : String)
  | invalidToml (path : String)
  | tooManyDigits (path : String)
  | notATable
  | unknownKeys (keys : List String)
  | notAnInteger (key : String) (got : Bool)
  | wrongType (key expected got : String)
  | workers (got : Int)
  | unqualified (handleType : String)
  | unknownLevel (level : String)
  | emptyValue (key : String)
  deriving DecidableEq, Repr

namespace ConfigError

open Text

def message [Caught] : ConfigError → String
  | notFound path => "config file not found: " ++ path
  | unreadable path => Caught.explain "cannot read config file " path
  | notText path => "config file is not UTF-8 text: " ++ path
  | badName path => "no file can have the name " ++ quoted path
  | invalidToml path => Caught.explain "invalid TOML in " path
  | tooManyDigits path => "number with too many digits in " ++ path
  | notATable => "[parallelize] must be a table"
  | unknownKeys keys => "unknown [parallelize] keys: " ++ ", ".intercalate keys
  | notAnInteger key got =>
    key ++ " must be an integer, got " ++ (if got then "True" else "False")
  | wrongType key expected got => key ++ " must be " ++ expected ++ ", got " ++ got
  | workers got => "max_workers must be positive, got " ++ toString got
  | unqualified handleType => "handle_type must be package-qualified, got " ++ quoted handleType
  | unknownLevel level => "unknown log_level " ++ quoted level
  | emptyValue key => key ++ " must not be empty"

def isForeseen : ConfigError → Bool
  | notText _ | badName _ | tooManyDigits _ => false
  | _ => true

end ConfigError

namespace Config

def levels : List String := ["DEBUG", "INFO", "WARNING", "ERROR", "CRITICAL"]

def isQualified (handleType : String) : Bool :=
  (Text.trim (· = '.') handleType).toList.contains '.' && !Text.startsWith handleType "*"

def required (c : Config) : List (String × String) :=
  [("test_prefix", c.testPrefix), ("run_method", c.runMethod),
    ("parallel_method", c.parallelMethod), ("table_var", c.tableVar), ("case_var", c.caseVar)]

def problem? (c : Config) : Option ConfigError :=
  if c.maxWorkers.any (· < 1) then some (.workers (c.maxWorkers.getD 0))
  else if !isQualified c.handleType then some (.unqualified c.handleType)
  else if Text.upperCase c.logLevel ∉ levels then some (.unknownLevel c.logLevel)
  else (c.required.find? (·.2.isEmpty)).map fun p => .emptyValue p.1

def validate (c : Config) : Except ConfigError Config :=
  match c.problem? with
  | some e => .error e
  | none => .ok c

structure Overrides where
  testPrefix : Option String := none
  handleType : Option String := none
  runMethod : Option String := none
  parallelMethod : Option String := none
  tableVar : Option String := none
  caseVar : Option String := none
  testFileSuffix : Option String := none
  testUnitMarker : Option String := none
  recursive : Option Bool := none
  emitNonTestFiles : Option Bool := none
  maxWorkers : Option Int := none
  logLevel : Option String := none
  deriving DecidableEq, Repr

def replaced (c : Config) (o : Overrides) : Config where
  testPrefix := o.testPrefix.getD c.testPrefix
  handleType := o.handleType.getD c.handleType
  runMethod := o.runMethod.getD c.runMethod
  parallelMethod := o.parallelMethod.getD c.parallelMethod
  tableVar := o.tableVar.getD c.tableVar
  caseVar := o.caseVar.getD c.caseVar
  testFileSuffix := o.testFileSuffix.getD c.testFileSuffix
  testUnitMarker := o.testUnitMarker.getD c.testUnitMarker
  recursive := o.recursive.getD c.recursive
  emitNonTestFiles := o.emitNonTestFiles.getD c.emitNonTestFiles
  maxWorkers := o.maxWorkers.or c.maxWorkers
  logLevel := o.logLevel.getD c.logLevel

def withOverrides (c : Config) (o : Overrides) : Except ConfigError Config :=
  (c.replaced o).validate

end Config

end ParallelTests
