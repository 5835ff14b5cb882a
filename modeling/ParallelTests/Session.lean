import ParallelTests.Parser.File
import ParallelTests.Run.Worker
import ParallelTests.Types.Resolve

/-!
Working on the files of a package step by step. The files stay as the steps leave them, also after
a step that fails.
-/

namespace ParallelTests

inductive StepError
  | noFile
  | noFunction
  | noBlock
  | noBody
  | noStatements
  | parse (error : ParseError)
  | run (error : RunError)

structure Session where
  package : String
  config : Config
  files : List Node
  types : TypeTable
  subtests : List ((Nat × String) × Option Span) := []

namespace Session

def unitId : String := "u [u.test]"

abbrev Step (α : Type) := Progress StepError Session α

def structural {α : Type} (r : Except Breach α) : Except StepError α :=
  r.mapError fun b => .run (.structural b)

def read (sources : List Source) (package : String) : Except StepError (List Node × TypeTable) := do
  let files ← sources.mapM fun s => s.parse.mapError .parse
  return (files, ← structural (Types.resolveAll package files))

def start (package : String) (config : Config) (sources : List Source) :
    Except StepError Session := do
  let (files, types) ← read sources package
  return { package, config, files, types }

def fileIndex? (s : Session) (n : Int) : Option Nat :=
  let index := if n < 0 then n + s.files.length else n
  if 0 ≤ index ∧ index < s.files.length then some index.toNat else none

def fileAt (s : Session) (file : Nat) : Node := s.files.getD file (.bare (.file "" "" [] []))

def funcIndex? (s : Session) (file : Nat) (name : String) : Option Nat :=
  (s.fileAt file).children.findIdx? fun d => d.isFuncDecl && d.funcName = name

def replaceDecl (s : Session) (file index : Nat) (decl : Node) : Session :=
  let change (f : Node) := f.withDecls (f.children.set index decl)
  { s with files := s.files.modify file change }

def onFunc {α : Type} (s : Session) (file : Nat) (name : String) (act : Nat → Node → Step α) :
    Step α :=
  match s.funcIndex? file name with
  | none => ⟨s, [], .error .noFunction⟩
  | some i =>
    match (s.fileAt file).children[i]? with
    | none => ⟨s, [], .error .noFunction⟩
    | some decl => act i decl

def classify (s : Session) (file : Nat) (name : String) : Step (Bool × Option String) :=
  s.onFunc file name fun i decl =>
    let kind := Classification.of s.config s.types ⟨file, [i]⟩ decl
    ⟨s, kind.records s.config {}, .ok (kind = .isTest, decl.handleName)⟩

structure Parallelized where
  status : Status
  messages : List String
  stmt : Option Node
  args : Option (List Kind)

def remember (s : Session) (file : Nat) (name : String) (span : Option Span) : Session :=
  { s with subtests := ((file, name), span) :: s.subtests }

def parallelize (s : Session) (file : Nat) (name : String) (choice : Option (Option String)) :
    Step Parallelized :=
  s.onFunc file name fun i decl =>
    let handle := choice.getD decl.handleName
    let done := Edit.parallelize s.config {} decl handle
    let s := s.replaceDecl file i done.state
    match done.result with
    | .error b => ⟨s, done.records, .error (.run (.structural b))⟩
    | .ok plan =>
      let stmt :=
        match plan with
        | .subtest a _ => done.state.at? a
        | _ => none
      let args := stmt.bind fun n => (n.at? [0]).map fun call => call.args.map Node.kind
      let s := s.remember file name (stmt.bind Node.span)
      ⟨s, done.records, .ok ⟨plan.status, plan.messages s.config handle, stmt, args⟩⟩

def find (s : Session) (file : Nat) (name handle : String) : Step (Option (Node × Node)) :=
  s.onFunc file name fun _ decl =>
    match decl.body? with
    | none => ⟨s, [], .error .noBody⟩
    | some body =>
      let found := structural (body.findSubtest handle s.config.runMethod [1])
      let pair (r : Option (Address × Node)) : Option (Node × Node) :=
        r.bind fun (_, stmt) =>
          (stmt.subtestCall? handle s.config.runMethod).map fun call => (stmt, call)
      ⟨s, [], found.map pair⟩

def locate (decl : Node) (span : Span) : Option Address :=
  ((decl.preorder []).find? fun p => p.2.kind = .exprStmt && p.2.span = some span).map (·.1)

def fix (s : Session) (file : Nat) (name : String) : Step Bool :=
  s.onFunc file name fun i decl =>
    let span := (s.subtests.lookup (file, name)).join
    let done := Edit.repair s.config {} decl ((span.bind (locate decl)).getD [])
    let s := s.replaceDecl file i done.state
    ⟨s, done.records, structural done.result⟩

def process (s : Session) (file : Nat) (name : String) : Step Outcome :=
  s.onFunc file name fun i decl =>
    let path := (s.fileAt file).filePath
    let done := Edit.function s.config s.types ⟨file, [i]⟩ path {} decl
    ⟨s.replaceDecl file i done.state, done.records, structural done.result⟩

def processFile (s : Session) (file : Nat) : Step (List Outcome) :=
  let done := Worker.file s.config s.types file {} (s.fileAt file)
  ⟨{ s with files := s.files.set file done.state }, done.records, structural done.result⟩

def run (s : Session) : Step (UnitReport × List String) :=
  let done := Worker.run s.config {} ⟨unitId, s.package, "", s.files, s.types⟩
  ⟨{ s with files := done.state.files }, done.records,
    (done.result.mapError .run).map fun report => (report, done.state.writes)⟩

def prepend (s : Session) (file : Nat) (name : String) (block : Nat) (handle method : String) :
    Step Unit :=
  s.onFunc file name fun i decl =>
    match decl.visited with
    | .error b => ⟨s, [], .error (.run (.structural b))⟩
    | .ok nodes =>
      match (nodes.filter (·.2.kind = .block))[block]? with
      | none => ⟨s, [], .error .noBlock⟩
      | some (a, _) =>
        let decl := decl.modifyAt (.prepend (.parallelCall handle method)) a
        ⟨s.replaceDecl file i decl, [], .ok ()⟩

def spoil (decl : Node) : Node :=
  let add (block : Node) : Node :=
    match block.shape with
    | .block stmts oneLine lead =>
      block.withShape (.block (stmts ++ [.bare (.unknown "Bogus")]) oneLine lead)
    | _ => block
  if decl.body?.isSome then decl.modifyAt add [1] else decl

def spoilAll (file : Node) : Node :=
  file.withDecls (file.children.map fun d => if d.isFuncDecl then spoil d else d)

def bogus (s : Session) (file : Nat) (name : String) : Step Unit :=
  s.onFunc file name fun i decl =>
    if decl.body?.isNone then ⟨s, [], .error .noStatements⟩
    else ⟨s.replaceDecl file i (spoil decl), [], .ok ()⟩

def render (s : Session) (file : Nat) : Step String :=
  ⟨s, [], (s.fileAt file).render.mapError fun e => .run (.print e)⟩

def renderFunc (s : Session) (file : Nat) (name : String) : Step String :=
  s.onFunc file name fun _ decl => ⟨s, [], decl.render.mapError fun e => .run (.print e)⟩

def reload (s : Session) : Step Unit :=
  let again : Except StepError (List Node × TypeTable) := do
    let files ← s.files.mapM fun f => do
      let text ← f.render.mapError fun e => StepError.run (.print e)
      (Source.ofString f.filePath text).parse.mapError StepError.parse
    return (files, ← structural (Types.resolveAll s.package files))
  match again with
  | .error e => ⟨s, [], .error e⟩
  | .ok (files, types) => ⟨{ s with files, types, subtests := [] }, [], .ok ()⟩

end Session

end ParallelTests
