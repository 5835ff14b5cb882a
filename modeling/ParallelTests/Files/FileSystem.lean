import ParallelTests.Files.Listing
import ParallelTests.Files.Path

namespace ParallelTests

structure FileSystem where
  root : Listing
  workDir : List String
  deriving DecidableEq, Repr

/-- What a path leads to. A way is blocked if it goes on through a file, and it may be longer than any
can be. No name holds a zero character. -/
inductive Found
  | missing
  | blocked
  | tooLong
  | badName
  | file (text : Option String)
  | directory (inside : Listing)
  deriving DecidableEq, Repr

inductive ReadError
  | missing
  | unreadable
  | notText
  | badName
  deriving DecidableEq, Repr

namespace FileSystem

def maxName : Nat := 255

def maxPath : Nat := 4095

def follow : List String → Listing → List Listing → Found
  | [], here, _ => .directory here
  | name :: names, here, above =>
    if name = ".." then
      match above with
      | [] => follow names here []
      | up :: above => follow names up above
    else if maxName < name.utf8ByteSize then .tooLong
    else
      match here.get? name with
      | none => .missing
      | some (.file text) => if names.isEmpty then .file text else .blocked
      | some (.folder inside) => follow names inside (here :: above)

def way (fs : FileSystem) (p : Path) : List String :=
  if p.isAbsolute then p.parts else fs.workDir ++ p.parts

def find (fs : FileSystem) (p : Path) : Found :=
  if p.hasZero then .badName
  else if maxPath < p.text.utf8ByteSize then .tooLong
  else follow (fs.way p) fs.root []

def read (fs : FileSystem) (p : Path) : Except ReadError String :=
  match fs.find p with
  | .missing => .error .missing
  | .blocked | .tooLong | .directory _ => .error .unreadable
  | .badName => .error .badName
  | .file none => .error .notText
  | .file (some text) => .ok (readText text)

def lastName (fs : FileSystem) (p : Path) : String := (Path.normalize (fs.way p)).getLastD ""

def write? (fs : FileSystem) (p : Path) (text : String) : Option FileSystem :=
  match fs.find p, follow (fs.way p).dropLast fs.root [] with
  | .directory _, _ | .tooLong, _ | .badName, _ => none
  | _, .directory _ =>
    some { fs with root := fs.root.putFile (some text) (Path.normalize (fs.way p)) }
  | _, _ => none

end FileSystem

end ParallelTests
