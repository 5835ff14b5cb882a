import ParallelTests.Config.Basic
import ParallelTests.Files.FileSystem
import ParallelTests.Log.Basic
import ParallelTests.Module.CompilationUnit
import ParallelTests.Parser.File
import ParallelTests.Types.Resolve

namespace ParallelTests

inductive LoadError
  | notADirectory (path : String)
  | unreadable (path : String)
  | notText (path : String)
  | badName (path : String)
  | tooLong (path : String)
  | packages (names : List String) (directory : String)
  | noFiles (path : String)
  | parse (error : ParseError)
  | structural (breach : Breach)
  deriving DecidableEq, Repr

namespace LoadError

def message [Caught] : LoadError → String
  | notADirectory path => "not a directory: " ++ path
  | unreadable path => Caught.explain "cannot read " path
  | notText path => path ++ " is not UTF-8 text"
  | badName path => "no file can have the name " ++ Text.quoted path
  | tooLong path => "name too long: " ++ path
  | packages names directory => "found packages " ++ " and ".intercalate names ++ " in " ++ directory
  | noFiles path => "no Go files in " ++ path
  | parse error => error.message
  | structural breach => breach.message

def isForeseen : LoadError → Bool
  | notText _ | badName _ | tooLong _ => false
  | _ => true

end LoadError

def clauseOf? : List Token → Option String
  | t :: rest =>
    if t.isKeyword .kwPackage then
      match rest.map Token.lexeme with
      | .ident name :: _ => some name
      | _ => none
    else clauseOf? rest
  | [] => none

namespace Source

def package (s : Source) : Except ParseError String := do
  let stream ← (TokenStream.ofSource s).mapError s.locate
  match clauseOf? stream.tokens with
  | some name => .ok name
  | none => .error (s.locate ⟨.noPackage, (stream.tokens.head?.map Token.start).getD 0⟩)

end Source

structure GoFile where
  source : Source
  package : String
  isTest : Bool
  deriving DecidableEq, Repr

namespace GoFile

def isHidden (name : String) : Bool := Text.startsWith name "." || Text.startsWith name "_"

def isName (name : String) : Bool := Text.endsWith name ".go" && !isHidden name

def entries (l : Listing) : List (String × Option String) :=
  (l.files.filter (isName ·.1)).mergeSort fun a b => decide (a.1 ≤ b.1)

def read (c : Config) (directory : Path) (entry : String × Option String) :
    Except LoadError GoFile :=
  let path := (directory.child entry.1).text
  match entry.2 with
  | none => .error (.unreadable path)
  | some text => do
    let source := Source.ofString path (readText text)
    let package ← source.package.mapError .parse
    return ⟨source, package, Text.endsWith entry.1 c.testFileSuffix⟩

def isExternal (f : GoFile) : Bool := f.isTest && Text.endsWith f.package "_test"

def isInternal (f : GoFile) : Bool := f.isTest && !Text.endsWith f.package "_test"

def packages (files : List GoFile) : List String :=
  ((files.map (·.package)).eraseDups).mergeSort fun a b => decide (a ≤ b)

def checkSingle (directory : Path) (files : List GoFile) : Except LoadError Unit :=
  match packages files with
  | a :: b :: rest => .error (.packages (a :: b :: rest) directory.text)
  | _ => .ok ()

end GoFile

namespace CompilationUnit

def build (id pkgPath : String) (files : List GoFile) : Except LoadError (Option CompilationUnit) :=
  match files with
  | [] => .ok none
  | first :: _ => do
    let trees ← files.mapM fun f => f.source.parse.mapError .parse
    let types ← (Types.resolveAll pkgPath trees).mapError .structural
    return some ⟨id, pkgPath, first.package, trees, types⟩

def testId (pkgPath : String) : String := pkgPath ++ " [" ++ pkgPath ++ ".test]"

def externalPath (pkgPath : String) : String := pkgPath ++ "_test"

def externalId (pkgPath : String) : String :=
  externalPath pkgPath ++ " [" ++ pkgPath ++ ".test]"

def ofPackage (c : Config) (directory : Path) (pkgPath : String) (inside : Listing) :
    Except LoadError (List CompilationUnit) := do
  let files ← (GoFile.entries inside).mapM (GoFile.read c directory)
  let plain := files.filter (!·.isTest)
  let internal := files.filter GoFile.isInternal
  let external := files.filter GoFile.isExternal
  GoFile.checkSingle directory (plain ++ internal)
  GoFile.checkSingle directory external
  let first ← build pkgPath pkgPath plain
  let second ← build (testId pkgPath) pkgPath (if internal.isEmpty then [] else plain ++ internal)
  let third ← build (externalId pkgPath) (externalPath pkgPath) external
  return first.toList ++ second.toList ++ third.toList

def loaded (log : Log.Logger) (u : CompilationUnit) : Log.Record :=
  log.record .debug "loaded unit" [("unit", .text u.id), ("files", .number u.files.length)]

end CompilationUnit

end ParallelTests
