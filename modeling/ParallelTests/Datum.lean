import ParallelTests.Decimal.Shortest
import ParallelTests.Text.Quoted

namespace ParallelTests

inductive Datum
  | absent
  | flag (value : Bool)
  | number (value : Int)
  | decimal (value : Decimal)
  | text (value : String)
  | list (items : List Datum)
  | table (entries : List (String × Datum))
  deriving Repr, Inhabited

namespace Datum

mutual

def inner : Datum → String
  | absent => "None"
  | flag true => "True"
  | flag false => "False"
  | number n => toString n
  | decimal d => d.shown
  | text s => Text.quoted s
  | list items => "[" ++ ", ".intercalate (inners items) ++ "]"
  | table entries => "\x7b" ++ ", ".intercalate (pairs entries) ++ "\x7d"

def inners : List Datum → List String
  | [] => []
  | d :: ds => d.inner :: inners ds

def pairs : List (String × Datum) → List String
  | [] => []
  | (key, d) :: rest => (Text.quoted key ++ ": " ++ d.inner) :: pairs rest

end

def shown : Datum → String
  | text s => s
  | d => d.inner

def isAbsent : Datum → Bool
  | absent => true
  | _ => false

def isEmpty : Datum → Bool
  | absent => true
  | flag b => !b
  | number n => n = 0
  | decimal d => d.double = .zero
  | text s => s.isEmpty
  | list items => items.isEmpty
  | table entries => entries.isEmpty

end Datum

end ParallelTests
