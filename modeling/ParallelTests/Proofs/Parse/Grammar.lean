import ParallelTests.Proofs.Parse.Clause

namespace ParallelTests.Parser

open Scan TokenGroup

variable {s : TokenStream} {line : Nat}

theorem specs (hr : Remarks line s.comments) (n : Nat) : Specs s n := by
  induction n using Nat.strongRecOn with
  | ind n ih =>
    exact {
      expr := fun h => expr_spec (ih _ h)
      primary := fun h => primary_spec (ih _ h)
      trailers := fun h => trailers_spec (ih _ h)
      argument := fun h => argument_spec (ih _ h)
      funcLit := fun h => funcLit_spec (ih _ h)
      funcType := fun h => funcType_spec (ih _ h)
      rawNodes := fun h => rawNodes_spec (ih _ h)
      block := fun h => block_spec hr (ih _ h)
      items := fun h => items_spec (ih _ h)
      clause := fun h => clause_spec hr (ih _ h)
      clauseBody := fun h => clauseBody_spec (ih _ h)
      stmt := fun h => stmt_spec (ih _ h)
      labeled := fun h => labeled_spec (ih _ h)
      rawStmt := fun h => rawStmt_spec (ih _ h)
      bodyStmt := fun h => bodyStmt_spec (ih _ h)
      ifStmt := fun h => ifStmt_spec (ih _ h)
      forStmt := fun h => forStmt_spec (ih _ h)
      rangeVars := fun h => rangeVars_spec (ih _ h)
      varStmt := fun h => varStmt_spec (ih _ h)
      varType := fun h => varType_spec (ih _ h)
      exprs := fun h => exprs_spec (ih _ h)
      simple := fun h => simple_spec (ih _ h) }

lemma expr_ok (hr : Remarks line s.comments) (st : Stretch) : ExprSpec s st :=
  (specs hr _).expr (Nat.lt_succ_self _)

lemma funcType_ok (hr : Remarks line s.comments) (inner : List TokenGroup) : FuncTypeSpec s inner :=
  (specs hr _).funcType (Nat.lt_succ_self _)

lemma rawNodes_ok (hr : Remarks line s.comments) (gs : List TokenGroup) : RawNodesSpec s gs :=
  (specs hr _).rawNodes (Nat.lt_succ_self _)

lemma block_ok (hr : Remarks line s.comments) (inner : List TokenGroup) : BlockSpec s inner :=
  (specs hr _).block (Nat.lt_succ_self _)

end ParallelTests.Parser
