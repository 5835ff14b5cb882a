import ParallelTests.Parser.File
import ParallelTests.Proofs.Result

/-!
Induction over the rules of the grammar. Each rule calls others on less than it is given, so what
holds of a rule when it holds of all rules on less holds of all.
-/

namespace ParallelTests.Parser

open TokenGroup

structure Law where
  expr : Stretch → Prop
  primary : Stretch → Prop
  trailers : List TokenGroup → Prop
  argument : Stretch → Prop
  funcLit : List TokenGroup → Prop
  funcType : List TokenGroup → Prop
  rawNodes : List TokenGroup → Prop
  block : List TokenGroup → Prop
  items : List TokenGroup → Prop
  clause : List TokenGroup → Prop
  clauseBody : List TokenGroup → Prop
  stmt : Stretch → Prop
  labeled : List TokenGroup → Prop
  rawStmt : Stretch → Prop
  bodyStmt : List TokenGroup → Prop
  ifStmt : List TokenGroup → Prop
  forStmt : List TokenGroup → Prop
  rangeVars : List TokenGroup → Prop
  varStmt : List TokenGroup → Prop
  varType : List TokenGroup → Prop
  exprs : List TokenGroup → Prop
  simple : Stretch → Prop

namespace Law

variable {L : Law}

structure Below (L : Law) (n : Nat) : Prop where
  expr : ∀ st, 8 * st.size + 1 < n → L.expr st
  primary : ∀ st, 8 * st.size < n → L.primary st
  trailers : ∀ gs, 8 * size gs < n → L.trailers gs
  argument : ∀ st, 8 * st.size + 2 < n → L.argument st
  funcLit : ∀ gs, 8 * size gs < n → L.funcLit gs
  funcType : ∀ inner, 8 * size inner + 2 < n → L.funcType inner
  rawNodes : ∀ gs, 8 * size gs < n → L.rawNodes gs
  block : ∀ inner, 8 * size inner + 6 < n → L.block inner
  items : ∀ gs, 8 * size gs + 5 < n → L.items gs
  clause : ∀ gs, 8 * size gs + 5 < n → L.clause gs
  clauseBody : ∀ gs, 8 * size gs + 5 < n → L.clauseBody gs
  stmt : ∀ st, 8 * st.size + 4 < n → L.stmt st
  labeled : ∀ gs, 8 * size gs + 5 < n → L.labeled gs
  rawStmt : ∀ st, 8 * st.size + 1 < n → L.rawStmt st
  bodyStmt : ∀ gs, 8 * size gs < n → L.bodyStmt gs
  ifStmt : ∀ gs, 8 * size gs < n → L.ifStmt gs
  forStmt : ∀ gs, 8 * size gs + 4 < n → L.forStmt gs
  rangeVars : ∀ bound, 8 * size bound + 3 < n → L.rangeVars bound
  varStmt : ∀ gs, 8 * size gs + 4 < n → L.varStmt gs
  varType : ∀ gs, 8 * size gs + 2 < n → L.varType gs
  exprs : ∀ gs, 8 * size gs + 2 < n → L.exprs gs
  simple : ∀ st, 8 * st.size + 3 < n → L.simple st

structure Inductive (L : Law) : Prop where
  expr : ∀ st, L.Below (8 * st.size + 1) → L.expr st
  primary : ∀ st, L.Below (8 * st.size) → L.primary st
  trailers : ∀ gs, L.Below (8 * size gs) → L.trailers gs
  argument : ∀ st, L.Below (8 * st.size + 2) → L.argument st
  funcLit : ∀ gs, L.Below (8 * size gs) → L.funcLit gs
  funcType : ∀ inner, L.Below (8 * size inner + 2) → L.funcType inner
  rawNodes : ∀ gs, L.Below (8 * size gs) → L.rawNodes gs
  block : ∀ inner, L.Below (8 * size inner + 6) → L.block inner
  items : ∀ gs, L.Below (8 * size gs + 5) → L.items gs
  clause : ∀ gs, L.Below (8 * size gs + 5) → L.clause gs
  clauseBody : ∀ gs, L.Below (8 * size gs + 5) → L.clauseBody gs
  stmt : ∀ st, L.Below (8 * st.size + 4) → L.stmt st
  labeled : ∀ gs, L.Below (8 * size gs + 5) → L.labeled gs
  rawStmt : ∀ st, L.Below (8 * st.size + 1) → L.rawStmt st
  bodyStmt : ∀ gs, L.Below (8 * size gs) → L.bodyStmt gs
  ifStmt : ∀ gs, L.Below (8 * size gs) → L.ifStmt gs
  forStmt : ∀ gs, L.Below (8 * size gs + 4) → L.forStmt gs
  rangeVars : ∀ bound, L.Below (8 * size bound + 3) → L.rangeVars bound
  varStmt : ∀ gs, L.Below (8 * size gs + 4) → L.varStmt gs
  varType : ∀ gs, L.Below (8 * size gs + 2) → L.varType gs
  exprs : ∀ gs, L.Below (8 * size gs + 2) → L.exprs gs
  simple : ∀ st, L.Below (8 * st.size + 3) → L.simple st

theorem Inductive.below (h : L.Inductive) (n : Nat) : L.Below n := by
  induction n using Nat.strongRecOn with
  | ind n ih =>
    exact {
      expr := fun st hn => h.expr st (ih _ hn)
      primary := fun st hn => h.primary st (ih _ hn)
      trailers := fun gs hn => h.trailers gs (ih _ hn)
      argument := fun st hn => h.argument st (ih _ hn)
      funcLit := fun gs hn => h.funcLit gs (ih _ hn)
      funcType := fun gs hn => h.funcType gs (ih _ hn)
      rawNodes := fun gs hn => h.rawNodes gs (ih _ hn)
      block := fun gs hn => h.block gs (ih _ hn)
      items := fun gs hn => h.items gs (ih _ hn)
      clause := fun gs hn => h.clause gs (ih _ hn)
      clauseBody := fun gs hn => h.clauseBody gs (ih _ hn)
      stmt := fun st hn => h.stmt st (ih _ hn)
      labeled := fun gs hn => h.labeled gs (ih _ hn)
      rawStmt := fun st hn => h.rawStmt st (ih _ hn)
      bodyStmt := fun gs hn => h.bodyStmt gs (ih _ hn)
      ifStmt := fun gs hn => h.ifStmt gs (ih _ hn)
      forStmt := fun gs hn => h.forStmt gs (ih _ hn)
      rangeVars := fun gs hn => h.rangeVars gs (ih _ hn)
      varStmt := fun gs hn => h.varStmt gs (ih _ hn)
      varType := fun gs hn => h.varType gs (ih _ hn)
      exprs := fun gs hn => h.exprs gs (ih _ hn)
      simple := fun st hn => h.simple st (ih _ hn) }

end Law

def readParam (s : TokenStream) (st : Stretch) : Result Param :=
  match paramName? st with
  | some (t, name, type) => do return Param.typed st.span (.ident t name) (← expr s false type)
  | none =>
    match singleIdent? st with
    | some ident => return Param.name ident
    | none => fail .mixedParameters st.first

def readParamType (s : TokenStream) (st : Stretch) : Result Placed := do
  let type ← expr s false st
  return { span := st.span, shape := .field [] type.node }

lemma funcType_eq (s : TokenStream) (o : Token) (inner : List TokenGroup) (c : Token) :
    funcType s o inner c =
      let entries := Stretch.split (isOp .comma) inner
      if entries.any fun st => (paramName? st).isSome then do
        let params ← entries.mapM (readParam s)
        if (fields [] params).2.isEmpty then
          return { span := .ofTokens o c, shape := .funcType ((fields [] params).1.map Placed.node) }
        else fail .missingParameterType c
      else do
        let params ← entries.mapM (readParamType s)
        return { span := .ofTokens o c, shape := .funcType (params.map Placed.node) } := by
  rw [funcType, Except.attach_mapM_eq (g := readParam s), Except.attach_mapM_eq (g := readParamType s)]
  · dsimp only
    congr 2
    funext params
    rcases fields [] params with ⟨done, _ | ⟨p, left⟩⟩ <;> rfl
  · intro st hx
    rfl
  · intro st hx
    dsimp only
    unfold readParam
    split
    · next hn => rw [hn]
    · next hn => cases singleIdent? st <;> rw [hn]

end ParallelTests.Parser
