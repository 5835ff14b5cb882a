import ParallelTests.Node.Walk

/-!
Subtest calls on a test's handle, and the scopes in which the handle's name means something else.
-/

namespace ParallelTests

namespace Node

def subtestCall? (handle method : String) (n : Node) : Option Node :=
  match n.shape with
  | .exprStmt call =>
    match call.shape with
    | .call callee _ _ =>
      match callee.shape with
      | .selector x sel => if x.isNamed handle && sel.isNamed method then some call else none
      | _ => none
    | _ => none
  | _ => none

def args (n : Node) : List Node :=
  match n.shape with
  | .call _ args _ => args
  | _ => []

def hasEllipsis (n : Node) : Bool :=
  match n.shape with
  | .call _ _ ellipsis => ellipsis
  | _ => false

def params (n : Node) : List Node :=
  match n.shape with
  | .funcType params => params
  | _ => []

def names (n : Node) : List Node :=
  match n.shape with
  | .field names _ => names
  | _ => []

def paramCount (n : Node) : Nat := n.params.foldl (fun n p => n + max p.names.length 1) 0

def usableName : List Node → Option String
  | [] => none
  | n :: _ => if n.isNamed "_" then none else some n.name

def closureHandle (n : Node) : Option String :=
  match n.shape with
  | .funcLit _ type _ =>
    if type.paramCount = 1 then type.params.head?.bind (usableName ·.names) else none
  | _ => none

def binds (names : List Node) (handle : String) : Bool := names.any (·.isNamed handle)

def rebinds (handle : String) (n : Node) : Bool :=
  match n.shape with
  | .assign lhs ":=" _ => binds lhs handle
  | .varStmt names _ _ => binds names handle
  | _ => false

def afterRebinding (handle : String) (stmts : List Node) : List Nat :=
  match stmts.findIdx? (rebinds handle) with
  | none => []
  | some i => (List.range stmts.length).drop (i + 1)

def shadowed (handle : String) (n : Node) : List Nat :=
  match n.shape with
  | .funcLit _ type _ => if type.params.any fun p => binds p.names handle then [0, 1] else []
  | .rangeStmt key value (some ":=") _ _ =>
    if binds (key.toList ++ value.toList) handle then [n.children.length - 1] else []
  | .block stmts _ _ => afterRebinding handle stmts
  | .caseClause _ body => (afterRebinding handle body).map (· + 1)
  | _ => []

structure Search where
  hidden : List Address := []
  found : Option (Address × Node) := none

def searchStep (handle method : String) (a : Address) (n : Node) (s : Search) : Verdict × Search :=
  if a ∈ s.hidden then (.skip, s)
  else
    let hidden := s.hidden ++ (n.shadowed handle).map (a ++ [·])
    if (n.subtestCall? handle method).isSome then (.stop, ⟨hidden, some (a, n)⟩)
    else (.enter, ⟨hidden, s.found⟩)

/-- The first subtest statement of a tree outside the scopes where the handle is redeclared. -/
def findSubtest (handle method : String) (at_ : Address) (n : Node) :
    Except Breach (Option (Address × Node)) :=
  (n.walk (searchStep handle method) at_ {}).map (·.2.found)

end Node

end ParallelTests
