namespace ParallelTests.Toml

inductive Value
  | string (text : String)
  | integer (value : Int)
  | float
  | boolean (value : Bool)
  | dateTime
  | date
  | time
  | array (items : List Value)
  | table (entries : List (String × Value))

abbrev Table := List (String × Value)

abbrev Key := List String

namespace Table

def get? (t : Table) (key : String) : Option Value := List.lookup key t

def set (t : Table) (key : String) (value : Value) : Table :=
  t.map fun e => if e.1 = key then (key, value) else e

def modify (lists : Bool) (f : Table → Option Table) : Key → Table → Option Table
  | [], t => f t
  | k :: ks, t =>
    match t.get? k with
    | none => (modify lists f ks []).map fun inner => t ++ [(k, .table inner)]
    | some (.table inner) => (modify lists f ks inner).map fun inner => t.set k (.table inner)
    | some (.array items) =>
      match lists, items.getLast? with
      | true, some (.table inner) =>
        (modify lists f ks inner).map fun inner => t.set k (.array (items.dropLast ++ [.table inner]))
      | _, _ => none
    | _ => none

def insert (key : String) (value : Value) (t : Table) : Option Table :=
  if (t.get? key).isSome then none else some (t ++ [(key, value)])

def push (key : String) (t : Table) : Option Table :=
  match t.get? key with
  | none => some (t ++ [(key, .array [.table []])])
  | some (.array items) => some (t.set key (.array (items ++ [.table []])))
  | some _ => none

end Table

end ParallelTests.Toml
