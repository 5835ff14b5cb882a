import ParallelTests.TestFunction.TableLoop

namespace ParallelTests

structure Progress (ε σ α : Type) where
  state : σ
  records : List Log.Record
  result : Except ε α

namespace Edit

def repair (c : Config) (log : Log.Logger) (decl : Node) (stmt : Address) :
    Progress Breach Node Bool :=
  match Repair.of c decl stmt with
  | .error breach => ⟨decl, [], .error breach⟩
  | .ok r => ⟨r.apply c decl, [log.record .debug (r.message c)], .ok r.isFixed⟩

def parallelize (c : Config) (log : Log.Logger) (decl : Node) (handle : Option String) :
    Progress Breach Node Plan :=
  let searching := Plan.searching c decl handle log
  match Plan.of c decl handle with
  | .error breach => ⟨decl, searching, .error breach⟩
  | .ok plan => ⟨plan.apply c decl, searching ++ plan.records c handle log, .ok plan⟩

def function (c : Config) (types : TypeTable) (place : Place) (path : String) (log : Log.Logger)
    (decl : Node) : Progress Breach Node Outcome :=
  let kind := Classification.of c types place decl
  let name := decl.funcName
  if kind ≠ .isTest then ⟨decl, kind.records c log, .ok ⟨path, name, .ignored, []⟩⟩
  else
    let handle := decl.handleName
    let first := parallelize c log decl handle
    let records := kind.records c log ++ first.records
    match first.result with
    | .error breach => ⟨first.state, records, .error breach⟩
    | .ok (.subtest stmt _) =>
      let second := repair c log first.state stmt
      let outcome (fixed : Bool) : Outcome :=
        ⟨path, name, if fixed then .tableFixed else .subtestParallelized, []⟩
      ⟨second.state, records ++ second.records, second.result.map outcome⟩
    | .ok plan => ⟨first.state, records, .ok ⟨path, name, plan.status, plan.messages c handle⟩⟩

end Edit

end ParallelTests
