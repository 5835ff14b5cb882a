import ParallelTests.Text.Trim

namespace ParallelTests

inductive ResolvedType
  | named (package name : String)
  | pointer (elem : ResolvedType)
  | basic (name : String)
  deriving DecidableEq, Repr

namespace ResolvedType

def text : ResolvedType → String
  | named package name => if package.isEmpty then name else package ++ "." ++ name
  | pointer elem => "*" ++ elem.text
  | basic name => name

end ResolvedType

namespace Types

def predeclared : List String :=
  ["any", "bool", "byte", "comparable", "complex64", "complex128", "error", "float32", "float64",
    "int", "int8", "int16", "int32", "int64", "rune", "string", "uint", "uint8", "uint16", "uint32",
    "uint64", "uintptr"]

def isMajorVersion : List Char → Bool
  | 'v' :: digits => !digits.isEmpty && digits.all Char.isDigit
  | _ => false

def dropVersion (cs : List Char) : List Char :=
  let back := cs.reverse
  match back.takeWhile Char.isDigit, back.dropWhile Char.isDigit with
  | _ :: _, 'v' :: '.' :: rest => rest.reverse
  | _, _ => cs

def dropVersionLine (cs : List Char) : List Char :=
  if cs.getLast? = some '\n' then dropVersion cs.dropLast ++ ['\n'] else dropVersion cs

def dropStart (start cs : List Char) : List Char :=
  if start.isPrefixOf cs then cs.drop start.length else cs

def importName (path : String) : String :=
  let elements := (path.toList.splitOn '/').filter (!·.isEmpty)
  match elements.reverse with
  | [] => path
  | [last] => String.ofList (dropStart "go-".toList (dropVersionLine last))
  | last :: before :: _ =>
    let element := if isMajorVersion last then before else last
    String.ofList (dropStart "go-".toList (dropVersionLine element))

end Types

end ParallelTests
