import ParallelTests.Config.Basic
import ParallelTests.Log.Basic
import ParallelTests.TestFunction.Handle
import ParallelTests.Types.Table

namespace ParallelTests

/-- Why a declaration is a test or none; the first reason counts. -/
inductive Classification
  | isTest
  | receiver
  | otherName
  | paramCount (count : Nat)
  | notPointer
  | pointsTo (type : Option ResolvedType)
  | otherType
  deriving DecidableEq, Repr

namespace Node

def funcName (decl : Node) : String :=
  match decl.shape with
  | .funcDecl name _ _ _ _ => name.name
  | _ => ""

def funcType (decl : Node) : Node :=
  match decl.shape with
  | .funcDecl _ type _ _ _ => type
  | _ => .bare (.funcType [])

def body? (decl : Node) : Option Node :=
  match decl.shape with
  | .funcDecl _ _ _ _ body => body
  | _ => none

def handleName (decl : Node) : Option String :=
  decl.funcType.params.head?.bind (usableName ·.names)

end Node

namespace Classification

def pointee (table : TypeTable) (place : Place) (field : Node) : Classification ⊕ ResolvedType :=
  match field.shape with
  | .field names type =>
    match type.shape with
    | .star _ =>
      match table.typeOf? ⟨place.file, place.address ++ [0, 0, names.length, 0]⟩ with
      | some (.named package name) => .inr (.named package name)
      | other => .inl (.pointsTo other)
    | _ => .inl .notPointer
  | _ => .inl .notPointer

/-- A test is a function, no method, whose name starts as tests do and whose only parameter is a
pointer to the handle type. -/
def of (c : Config) (table : TypeTable) (place : Place) (decl : Node) : Classification :=
  match decl.shape with
  | .funcDecl name type _ recv _ =>
    if recv.isSome then receiver
    else if !Text.startsWith name.name c.testPrefix then otherName
    else if type.paramCount ≠ 1 then paramCount type.paramCount
    else
      match type.params with
      | [] => notPointer
      | field :: _ =>
        match pointee table place field with
        | .inl reason => reason
        | .inr found => if found.text = c.handleType then isTest else otherType
  | _ => receiver

def message (c : Config) : Classification → String
  | isTest => "is a test function"
  | receiver => "not a test function: declaration has a receiver"
  | otherName =>
    "not a test function: name does not start with " ++ Text.quoted c.testPrefix
  | paramCount n =>
    "not a test function: parameter count is " ++ toString n ++ ", not one"
  | notPointer => "not a test function: parameter is not a pointer"
  | pointsTo type =>
    "not a test function: parameter points to " ++
      (type.map ResolvedType.text).getD "an unresolved type"
  | otherType => "not a test function: parameter is not " ++ c.handleType

def records (c : Config) (log : Log.Logger) (k : Classification) : List Log.Record :=
  [log.record .debug "checking if it's a test function", log.record .debug (k.message c)]

end Classification

end ParallelTests
