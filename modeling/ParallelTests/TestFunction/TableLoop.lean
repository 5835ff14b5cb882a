import ParallelTests.TestFunction.Plan

namespace ParallelTests

namespace Node

def bindsTable (name : String) (n : Node) : Bool :=
  match n.shape with
  | .assign lhs ":=" _ | .assign lhs "=" _ => binds lhs name
  | .varStmt names _ _ => binds names name
  | _ => false

/-- The case variable of a loop: its value, or its key if there is no value. -/
def caseVar? (n : Node) : Option Node :=
  match n.shape with
  | .rangeStmt key value _ _ _ => value.or key
  | _ => none

def tableLoopBody? (name : String) (n : Node) : Option Node :=
  match n.shape with
  | .rangeStmt _ _ _ x body => if x.isNamed name then some body else none
  | _ => none

def rebinding (name : String) : Node :=
  bare (.assign [bare (.ident name)] ":=" [bare (.ident name)])

end Node

inductive Repair
  | noTable
  | noLoop
  | otherVariable
  | rebind (body : Address)
  deriving DecidableEq, Repr

namespace Repair

def tableLoop (name : String) (subtest : Address) (index : Nat) :
    List Node → Except Breach (Option (Address × Node))
  | [] => .ok none
  | stmt :: rest =>
    match stmt.tableLoopBody? name with
    | none => tableLoop name subtest (index + 1) rest
    | some body => do
      let a := [1, index, stmt.children.length - 1]
      if ← body.holds a subtest then return some (a, stmt)
      else tableLoop name subtest (index + 1) rest

def of (c : Config) (decl : Node) (subtest : Address) : Except Breach Repair :=
  let stmts := (decl.body?.map Node.stmts).getD []
  if stmts.any (·.bindsTable c.tableVar) then do
    match ← tableLoop c.tableVar subtest 0 stmts with
    | none => return noLoop
    | some (a, loop) =>
      if loop.caseVar?.any (·.isNamed c.caseVar) then return rebind a else return otherVariable
  else .ok noTable

def apply (c : Config) (decl : Node) : Repair → Node
  | rebind a => decl.modifyAt (.prepend (.rebinding c.caseVar)) a
  | _ => decl

def isFixed : Repair → Bool
  | rebind _ => true
  | _ => false

def message (c : Config) : Repair → String
  | noTable => "no " ++ Text.quoted c.tableVar ++ " table bound in test body"
  | noLoop => "subtest call is not inside a range over " ++ Text.quoted c.tableVar
  | otherVariable => "table loop variable is not " ++ Text.quoted c.caseVar
  | rebind _ => c.caseVar ++ " rebound inside " ++ c.tableVar ++ " loop"

end Repair

end ParallelTests
