namespace ParallelTests

structure Path where
  root : String := ""
  parts : List String := []
  deriving DecidableEq, Repr

namespace Path

def splitSlash : List Char → List (List Char)
  | [] => [[]]
  | '/' :: cs => [] :: splitSlash cs
  | c :: cs =>
    match splitSlash cs with
    | [] => [[c]]
    | name :: names => (c :: name) :: names

def isStep (name : String) : Bool := name ≠ "" && name ≠ "."

def rootOf : List Char → String
  | '/' :: '/' :: '/' :: _ => "/"
  | '/' :: '/' :: _ => "//"
  | '/' :: _ => "/"
  | _ => ""

def ofString (s : String) : Path where
  root := rootOf s.toList
  parts := ((splitSlash s.toList).map String.ofList).filter isStep

def text (p : Path) : String :=
  if p.root = "" && p.parts.isEmpty then "." else p.root ++ "/".intercalate p.parts

def child (p : Path) (name : String) : Path := { p with parts := p.parts ++ [name] }

def below (p : Path) (names : List String) : Path := { p with parts := p.parts ++ names }

def hasZero (p : Path) : Bool := p.parts.any fun name => name.toList.contains '\x00'

def isAbsolute (p : Path) : Bool := p.root ≠ ""

def normalize (parts : List String) : List String :=
  parts.foldl (fun done name => if name = ".." then done.dropLast else done ++ [name]) []

end Path

end ParallelTests
