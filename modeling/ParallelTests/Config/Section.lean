import ParallelTests.Config.Basic
import ParallelTests.Toml.Value

namespace ParallelTests

inductive Setting
  | text (value : String)
  | integer (value : Int)
  | flag (value : Bool)
  | other (type : String)
  deriving DecidableEq, Repr

namespace Setting

def typeName : Setting → String
  | text _ => "str"
  | integer _ => "int"
  | flag _ => "bool"
  | other type => type

def ofToml : Toml.Value → Setting
  | .string s => text s
  | .integer n => integer n
  | .boolean b => flag b
  | .float => other "float"
  | .dateTime => other "datetime"
  | .date => other "date"
  | .time => other "time"
  | .array _ => other "list"
  | .table _ => other "dict"

def asText (key : String) : Setting → Except ConfigError String
  | text s => .ok s
  | v => .error (.wrongType key "str" v.typeName)

def asFlag (key : String) : Setting → Except ConfigError Bool
  | flag b => .ok b
  | v => .error (.wrongType key "bool" v.typeName)

def asInteger (key : String) : Setting → Except ConfigError Int
  | integer n => .ok n
  | flag b => .error (.notAnInteger key b)
  | v => .error (.wrongType key "int" v.typeName)

end Setting

namespace Config

def keys : List String :=
  ["test_prefix", "handle_type", "run_method", "parallel_method", "table_var", "case_var",
    "test_file_suffix", "test_unit_marker", "recursive", "emit_non_test_files", "max_workers",
    "log_level"]

def set (c : Config) (key : String) (v : Setting) : Except ConfigError Config :=
  match key with
  | "test_prefix" => (v.asText key).map fun s => { c with testPrefix := s }
  | "handle_type" => (v.asText key).map fun s => { c with handleType := s }
  | "run_method" => (v.asText key).map fun s => { c with runMethod := s }
  | "parallel_method" => (v.asText key).map fun s => { c with parallelMethod := s }
  | "table_var" => (v.asText key).map fun s => { c with tableVar := s }
  | "case_var" => (v.asText key).map fun s => { c with caseVar := s }
  | "test_file_suffix" => (v.asText key).map fun s => { c with testFileSuffix := s }
  | "test_unit_marker" => (v.asText key).map fun s => { c with testUnitMarker := s }
  | "recursive" => (v.asFlag key).map fun b => { c with recursive := b }
  | "emit_non_test_files" => (v.asFlag key).map fun b => { c with emitNonTestFiles := b }
  | "max_workers" => (v.asInteger key).map fun n => { c with maxWorkers := some n }
  | "log_level" => (v.asText key).map fun s => { c with logLevel := s }
  | _ => .error (.unknownKeys [key])

def unknownKeys (section_ : List (String × Setting)) : List String :=
  ((section_.map (·.1)).filter (· ∉ keys)).mergeSort fun a b => decide (a ≤ b)

def ofSection (section_ : List (String × Setting)) : Except ConfigError Config :=
  match unknownKeys section_ with
  | [] => do
    let c ← section_.foldlM (fun c e => set c e.1 e.2) {}
    c.validate
  | unknown => .error (.unknownKeys unknown)

def sectionOf (document : Toml.Table) : Except ConfigError (List (String × Setting)) :=
  match Toml.Table.get? document "parallelize" with
  | none => .ok []
  | some (.table t) => .ok (t.map fun e => (e.1, .ofToml e.2))
  | some _ => .error .notATable

end Config

end ParallelTests
