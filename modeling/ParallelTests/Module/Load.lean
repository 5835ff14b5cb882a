import ParallelTests.Module.Directive
import ParallelTests.Module.Package

namespace ParallelTests.Module

def fileName : String := "go.mod"

def declaredPath (fs : FileSystem) (file : Path) : Except LoadError (Option String) :=
  match fs.read file with
  | .ok text => .ok (Directive.modulePath? text)
  | .error .missing => .ok none
  | .error .unreadable => .error (.unreadable file.text)
  | .error .notText => .error (.notText file.text)
  | .error .badName => .error (.badName file.text)

/-- The path of the module in a directory; without a directive it is the directory's name. -/
def path (fs : FileSystem) (log : Log.Logger) (dir : Path) : Logged LoadError String := do
  match ← .ofExcept (declaredPath fs (dir.child fileName)) with
  | some path => return path
  | none =>
    .tell [log.record .warning "no module directive found; using directory name"
      [("dir", .text dir.text)]]
    return fs.lastName dir

def isSkipped (name : String) : Bool :=
  name = "testdata" || name = "vendor" || GoFile.isHidden name

def foldersBelow (way : List String) :
    Listing → List (String × List (List String × Listing))
  | .empty => []
  | .file _ _ rest => foldersBelow way rest
  | .folder name inside rest =>
    if isSkipped name then foldersBelow way rest
    else
      let way' := way ++ [name]
      let deeper := (foldersBelow way' inside).mergeSort fun a b => decide (a.1 ≤ b.1)
      (name, (way', inside) :: deeper.flatMap (·.2)) :: foldersBelow way rest

def packageDirs (c : Config) (inside : Listing) : List (List String × Listing) :=
  let deeper := (foldersBelow [] inside).mergeSort fun a b => decide (a.1 ≤ b.1)
  ([], inside) :: if c.recursive then deeper.flatMap (·.2) else []

def pkgPath (module : String) (way : List String) : String :=
  "/".intercalate (module :: way)

def loadPackage (c : Config) (log : Log.Logger) (directory : Path) (pkgPath : String)
    (inside : Listing) : Logged LoadError (List CompilationUnit) := do
  let units ← .ofExcept (CompilationUnit.ofPackage c directory pkgPath inside)
  .tell (units.map (CompilationUnit.loaded log))
  return units

def load (fs : FileSystem) (c : Config) (log : Log.Logger) (dir : Path) :
    Logged LoadError (List CompilationUnit) :=
  match fs.find dir with
  | .directory inside => do
    let module ← path fs log dir
    let units ← (packageDirs c inside).mapM fun (way, inside) =>
      loadPackage c log (dir.below way) (pkgPath module way) inside
    match units.flatten with
    | [] => .ofExcept (.error (.noFiles dir.text))
    | units => return units
  | .tooLong => .ofExcept (.error (.tooLong dir.text))
  | _ => .ofExcept (.error (.notADirectory dir.text))

end ParallelTests.Module
