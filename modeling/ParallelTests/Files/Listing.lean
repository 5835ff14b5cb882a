import ParallelTests.Text.Newline

namespace ParallelTests

/-- The entries of a directory. A file has no text if its bytes are no UTF-8. -/
inductive Listing
  | empty
  | file (name : String) (text : Option String) (rest : Listing)
  | folder (name : String) (inside : Listing) (rest : Listing)
  deriving DecidableEq, Repr

inductive Entry
  | file (text : Option String)
  | folder (inside : Listing)
  deriving DecidableEq, Repr

def readText (text : String) : String := String.ofList (Text.unifyNewlines text.toList)

namespace Listing

def get? (name : String) : Listing → Option Entry
  | empty => none
  | file n text rest => if n = name then some (.file text) else rest.get? name
  | folder n inside rest => if n = name then some (.folder inside) else rest.get? name

def add (name : String) : Entry → Listing → Listing
  | .file text, rest => .file name text rest
  | .folder inside, rest => .folder name inside rest

def set (name : String) (e : Entry) : Listing → Listing
  | empty => add name e empty
  | file n text rest => if n = name then add name e rest else .file n text (rest.set name e)
  | folder n inside rest =>
    if n = name then add name e rest else .folder n inside (rest.set name e)

def files : Listing → List (String × Option String)
  | empty => []
  | file n text rest => (n, text) :: rest.files
  | folder _ _ rest => rest.files

def inside (l : Listing) (name : String) : Listing :=
  match l.get? name with
  | some (.folder inside) => inside
  | _ => empty

def putFile (text : Option String) : List String → Listing → Listing
  | [], l => l
  | [name], l => l.set name (.file text)
  | name :: names, l => l.set name (.folder (putFile text names (l.inside name)))

def putFolder : List String → Listing → Listing
  | [], l => l
  | name :: names, l => l.set name (.folder (putFolder names (l.inside name)))

end Listing

end ParallelTests
