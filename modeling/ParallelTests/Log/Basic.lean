import ParallelTests.Datum
import ParallelTests.Text.Trim

namespace ParallelTests.Log

inductive Level
  | debug
  | info
  | warning
  | error
  deriving DecidableEq, Repr

namespace Level

def name : Level → String
  | debug => "DEBUG"
  | info => "INFO"
  | warning => "WARNING"
  | error => "ERROR"

def rank : Level → Int
  | debug => 10
  | info => 20
  | warning => 30
  | error => 40

end Level

def programName : String := "parallelize"

def rootName : String := "root"

def isUnder (name above : String) : Bool := name = above || Text.startsWith name (above ++ ".")

structure Record where
  level : Level
  message : String
  source : String := programName
  deriving DecidableEq, Repr

abbrev Fields := List (String × Datum)

def set (fields : Fields) (key : String) (value : Datum) : Fields :=
  if fields.any (·.1 = key) then fields.map fun f => if f.1 = key then (key, value) else f
  else fields ++ [(key, value)]

def merge (context fields : Fields) : Fields := fields.foldl (fun c f => set c f.1 f.2) context

def reserved : List String := ["self", "msg", "level"]

/-- A logger has a name, and a context that it adds to every record. -/
structure Logger where
  context : Fields := []
  name : String := programName
  deriving Repr

namespace Logger

def named? (context : Fields) (name : Datum) : Option Logger :=
  match name with
  | .text s => some ⟨context, if s.isEmpty then rootName else s⟩
  | d => if d.isEmpty then some ⟨context, rootName⟩ else none

def get? (context : Fields) : Option Logger :=
  match context.lookup "name" with
  | none => some ⟨context, programName⟩
  | some name => named? (context.filter (·.1 ≠ "name")) name

def withContext (l : Logger) (fields : Fields) : Logger := { l with context := merge l.context fields }

def withContext? (l : Logger) (fields : Fields) : Option Logger :=
  if fields.any (·.1 = "self") then none else some (l.withContext fields)

def render (l : Logger) (message : String) (fields : Fields) : String :=
  let told := (merge l.context fields).filter (!·.2.isAbsent)
  " ".intercalate (message :: told.map fun f => f.1 ++ "=" ++ f.2.shown)

def record (l : Logger) (level : Level) (message : String) (fields : Fields := []) : Record :=
  ⟨level, l.render message fields, l.name⟩

def record? (l : Logger) (level : Level) (message : String) (fields : Fields) : Option Record :=
  if fields.any (reserved.contains ·.1) then none else some (l.record level message fields)

end Logger

end ParallelTests.Log

namespace ParallelTests

structure Logged (ε α : Type) where
  records : List Log.Record
  result : Except ε α

namespace Logged

variable {ε α β : Type}

instance : Monad (Logged ε) where
  pure a := ⟨[], .ok a⟩
  bind x f :=
    match x.result with
    | .error e => ⟨x.records, .error e⟩
    | .ok a => ⟨x.records ++ (f a).records, (f a).result⟩

def tell (records : List Log.Record) : Logged ε Unit := ⟨records, .ok ()⟩

def ofExcept (r : Except ε α) : Logged ε α := ⟨[], r⟩

theorem bind_of_ok {x : Logged ε α} {a : α} (h : x.result = .ok a) (f : α → Logged ε β) :
    x >>= f = ⟨x.records ++ (f a).records, (f a).result⟩ := by
  simp [bind, h]

theorem bind_of_error {x : Logged ε α} {e : ε} (h : x.result = .error e) (f : α → Logged ε β) :
    x >>= f = ⟨x.records, .error e⟩ := by
  simp [bind, h]

end Logged

end ParallelTests
