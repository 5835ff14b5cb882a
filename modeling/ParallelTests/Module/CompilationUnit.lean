import ParallelTests.Node.Basic
import ParallelTests.Text.Trim
import ParallelTests.Types.Table

namespace ParallelTests

structure CompilationUnit where
  id : String
  pkgPath : String
  packageName : String
  files : List Node
  types : TypeTable

namespace CompilationUnit

def isTestVariant (u : CompilationUnit) (marker : String) : Bool := Text.endsWith u.id marker

end CompilationUnit

namespace Node

def filePath (file : Node) : String :=
  match file.shape with
  | .file path _ _ _ => path
  | _ => ""

def isFuncDecl (n : Node) : Bool :=
  match n.shape with
  | .funcDecl .. => true
  | _ => false

def withDecls (file : Node) (decls : List Node) : Node :=
  match file.shape with
  | .file path package imports _ => file.withShape (.file path package imports decls)
  | _ => file

end Node

end ParallelTests
