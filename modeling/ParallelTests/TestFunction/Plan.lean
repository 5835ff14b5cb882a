import ParallelTests.TestFunction.Classification
import ParallelTests.TestFunction.Outcome

namespace ParallelTests

namespace Node

def parallelCall (handle method : String) : Node :=
  let callee := bare (.selector (bare (.ident handle)) (bare (.ident method)))
  bare (.exprStmt (bare (.call callee [] false)))

/-- Puts a statement first in a block, which then no longer fits a line. -/
def prepend (stmt : Node) (block : Node) : Node :=
  match block.shape with
  | .block stmts _ lead => block.withShape (.block (stmt :: stmts) false lead)
  | _ => block

end Node

inductive Abort
  | noBody
  | noHandle
  | argCount (count : Nat)
  | notClosure (kind : Kind)
  | noClosureHandle
  deriving DecidableEq, Repr

inductive Plan
  | abort (reason : Abort)
  | simple (handle : String)
  | subtest (stmt : Address) (handle : String)
  deriving DecidableEq, Repr

namespace Plan

def ofCall (stmt : Address) (call : Node) : Plan :=
  if call.hasEllipsis then abort (.argCount call.args.length)
  else
    match call.args with
    | [_, closure] =>
      match closure.kind with
      | .funcLit =>
        match closure.closureHandle with
        | some inner => subtest stmt inner
        | none => abort .noClosureHandle
      | other => abort (.notClosure other)
    | args => abort (.argCount args.length)

def of (c : Config) (decl : Node) (handle : Option String) : Except Breach Plan :=
  match decl.body?, handle with
  | none, _ => .ok (abort .noBody)
  | some _, none => .ok (abort .noHandle)
  | some body, some handle =>
    match body.findSubtest handle c.runMethod [1] with
    | .error breach => .error breach
    | .ok none => .ok (simple handle)
    | .ok (some (a, stmt)) =>
      match stmt.subtestCall? handle c.runMethod with
      | some call => .ok (ofCall a call)
      | none => .ok (simple handle)

def target? : Plan → Option (Address × String)
  | abort _ => none
  | simple handle => some ([1], handle)
  | subtest stmt handle => some (stmt ++ [0, 2, 1], handle)

def apply (c : Config) (decl : Node) (p : Plan) : Node :=
  match p.target? with
  | none => decl
  | some (a, handle) => decl.modifyAt (.prepend (.parallelCall handle c.parallelMethod)) a

def status : Plan → Status
  | abort _ => .aborted
  | simple _ => .simpleParallelized
  | subtest _ _ => .subtestParallelized

end Plan

namespace Abort

def message (c : Config) (handle : String) : Abort → String
  | noBody => "test function has no body"
  | noHandle => "test handle parameter is unnamed or blank"
  | argCount n =>
    "found " ++ handle ++ "." ++ c.runMethod ++ " call, but number of arguments is " ++
      toString n ++ " instead of 2"
  | notClosure kind =>
    "found " ++ handle ++ "." ++ c.runMethod ++ " call, but the second argument is " ++ kind.name ++
      " instead of a function literal"
  | noClosureHandle =>
    "found " ++ handle ++ "." ++ c.runMethod ++
      " call, but its closure does not name a single handle parameter"

end Abort

namespace Plan

def messages (c : Config) (handle : Option String) : Plan → List String
  | abort reason => [reason.message c (handle.getD "")]
  | _ => []

def searching (c : Config) (decl : Node) (handle : Option String) (log : Log.Logger) :
    List Log.Record :=
  match decl.body?, handle with
  | some _, some handle =>
    [log.record .debug ("checking for " ++ handle ++ "." ++ c.runMethod ++ " calls")]
  | _, _ => []

def records (c : Config) (handle : Option String) (log : Log.Logger) : Plan → List Log.Record
  | abort reason => [log.record .error (reason.message c (handle.getD ""))]
  | simple h =>
    [log.record .debug (h ++ "." ++ c.parallelMethod ++ " call added to simple test body")]
  | subtest _ h =>
    [log.record .debug (h ++ "." ++ c.parallelMethod ++ " call added to subtest closure")]

end Plan

end ParallelTests
