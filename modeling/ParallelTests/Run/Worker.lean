import ParallelTests.Module.CompilationUnit
import ParallelTests.Printer.Render
import ParallelTests.TestFunction.Edit

namespace ParallelTests

inductive RunError
  | structural (breach : Breach)
  | print (error : PrintError)
  deriving DecidableEq, Repr

def RunError.message : RunError → String
  | structural breach => breach.message
  | print error => error.message

namespace Worker

def decls (c : Config) (types : TypeTable) (file : Nat) (path : String) (log : Log.Logger)
    (index : Nat) : List Node → Progress Breach (List Node) (List Outcome)
  | [] => ⟨[], [], .ok []⟩
  | decl :: rest =>
    if decl.isFuncDecl then
      let log' := log.withContext [("func", .text decl.funcName)]
      let here := Edit.function c types ⟨file, [index]⟩ path log' decl
      match here.result with
      | .error breach => ⟨here.state :: rest, here.records, .error breach⟩
      | .ok outcome =>
        let more := decls c types file path log (index + 1) rest
        ⟨here.state :: more.state, here.records ++ more.records,
          more.result.map (outcome :: ·)⟩
    else
      let more := decls c types file path log (index + 1) rest
      ⟨decl :: more.state, more.records, more.result⟩

def file (c : Config) (types : TypeTable) (index : Nat) (log : Log.Logger) (f : Node) :
    Progress Breach Node (List Outcome) :=
  let done := decls c types index f.filePath log 0 f.children
  ⟨f.withDecls done.state, done.records, done.result⟩

def isTestFile (c : Config) (f : Node) : Bool := Text.endsWith f.filePath c.testFileSuffix

structure FileResult where
  written : Option String
  outcomes : Option (List Outcome)

def visit (c : Config) (types : TypeTable) (log : Log.Logger) (index : Nat) (f : Node) :
    Progress RunError Node FileResult :=
  let log := log.withContext [("file", .text f.filePath)]
  if isTestFile c f then
    let started := log.record .debug "processing test file"
    let done := file c types index log f
    let result :=
      match done.result with
      | .error breach => .error (.structural breach)
      | .ok outcomes =>
        match done.state.render with
        | .error e => .error (.print e)
        | .ok text => .ok ⟨some text, some outcomes⟩
    ⟨done.state, started :: done.records, result⟩
  else
    let skipped := log.record .debug "skipping file due to not being a test file"
    let result :=
      if c.emitNonTestFiles then
        match f.render with
        | .error e => .error (.print e)
        | .ok text => .ok ⟨some text, none⟩
      else .ok ⟨none, none⟩
    ⟨f, [skipped], result⟩

structure Work where
  files : List Node
  writes : List String

def files (c : Config) (types : TypeTable) (log : Log.Logger) (index : Nat) :
    List Node → Progress RunError Work (List (String × List Outcome))
  | [] => ⟨⟨[], []⟩, [], .ok []⟩
  | f :: rest =>
    let here := visit c types log index f
    match here.result with
    | .error e => ⟨⟨here.state :: rest, []⟩, here.records, .error e⟩
    | .ok done =>
      let more := files c types log (index + 1) rest
      let told := done.outcomes.toList.map fun os => (f.filePath, os)
      ⟨⟨here.state :: more.state.files, done.written.toList ++ more.state.writes⟩,
        here.records ++ more.records, more.result.map (told ++ ·)⟩

def report (id : String) (done : List (String × List Outcome)) : UnitReport :=
  ⟨id, done.map (·.1), done.flatMap (·.2)⟩

def run (c : Config) (log : Log.Logger) (u : CompilationUnit) : Progress RunError Work UnitReport :=
  let log := log.withContext [("unit", .text u.id)]
  let done := files c u.types log 0 u.files
  match done.result with
  | .error e => ⟨done.state, done.records, .error e⟩
  | .ok results =>
    let report := report u.id results
    ⟨done.state, done.records ++ [log.record .info ("unit done: " ++ report.summary)], .ok report⟩

end Worker

end ParallelTests
