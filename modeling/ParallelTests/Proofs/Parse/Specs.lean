import ParallelTests.Proofs.Parse.Block
import ParallelTests.Proofs.Parse.Split

/-!
What each rule of the grammar gives: nodes that lie over the groups they are read from. The rules
call each other, so what is known of them is known up to a measure of what they are given.
-/

namespace ParallelTests.Parser

open Scan TokenGroup

def isBare (k : Kind) : Prop := k.isStmt = true ∧ k.isPlain = true

def Takes (src : List Char) (gs : List TokenGroup) (p : Placed) (rest : List TokenGroup) : Prop :=
  ∃ st : Stretch, gs = st.toList ++ rest ∧ Reads src p st

def TakesStmt (src : List Char) (gs : List TokenGroup) (p : Placed) (rest : List TokenGroup) : Prop :=
  ∃ st : Stretch, gs = st.toList ++ rest ∧ Stands src p st ∧ p.layout = {} ∧
    p.shape.kind ≠ .caseClause

def TakesBare (src : List Char) (gs : List TokenGroup) (p : Placed) (rest : List TokenGroup) : Prop :=
  ∃ st : Stretch, gs = st.toList ++ rest ∧ Reads src p st ∧ isBare p.shape.kind ∧
    st.last.isSemicolon = false

def Opened (gs : List TokenGroup) : Prop :=
  ∀ st ∈ Stretch.split (TokenGroup.isOp .comma) gs, st.first.isAutomatic = false

variable (s : TokenStream)

def ExprSpec (st : Stretch) : Prop :=
  ∀ {after : Bool} {p : Placed} {a b : Nat}, Scanned s.source.chars a st.toList b →
    expr s after st = .ok p → Reads s.source.chars p st ∧ p.shape.kind.isExpr = true

def PrimarySpec (st : Stretch) : Prop :=
  ∀ {step : Step st.tail} {a b : Nat}, Scanned s.source.chars a st.toList b →
    primary s st = .ok (some step) →
      Takes s.source.chars st.toList step.node step.rest ∧ step.node.shape.kind.isExpr = true

def TrailersSpec (gs : List TokenGroup) : Prop :=
  ∀ {node : Placed} {step : Step gs} {st : Stretch} {a b : Nat},
    Scanned s.source.chars a (st.toList ++ gs) b → Reads s.source.chars node st →
      st.first.isAutomatic = false → node.shape.kind.isExpr = true →
      trailers s st.first node gs = .ok step →
        Takes s.source.chars (st.toList ++ gs) step.node step.rest ∧
          step.node.shape.kind.isExpr = true

def ArgumentSpec (st : Stretch) : Prop :=
  ∀ {r : Placed × Bool} {a b : Nat}, Scanned s.source.chars a st.toList b →
    st.first.isAutomatic = false → argument s st = .ok r →
      Rowed s.source.chars a [r.1] b ∧ r.1.shape.kind.isExpr = true

def FuncLitSpec (gs : List TokenGroup) : Prop :=
  ∀ {t : Token} {step : Step gs} {a b : Nat}, Scanned s.source.chars a (.leaf t :: gs) b →
    t.isSemicolon = false → funcLit s t gs = .ok (some step) →
      Takes s.source.chars (.leaf t :: gs) step.node step.rest ∧ step.node.shape.kind = .funcLit

def FuncTypeSpec (inner : List TokenGroup) : Prop :=
  ∀ {o c : Token} {p : Placed} {a b : Nat}, Scanned s.source.chars a inner b →
    funcType s o inner c = .ok p →
      Woven s.source.chars p.node ∧ p.shape.kind = .funcType ∧ Rising a p.node.starts b

def RawNodesSpec (gs : List TokenGroup) : Prop :=
  ∀ {after : Bool} {ps : List Placed} {a b : Nat}, Scanned s.source.chars a gs b →
    rawNodes s after gs = .ok ps →
      Rowed s.source.chars a ps b ∧ ∀ p ∈ ps, p.shape.kind = .funcLit

def BlockSpec (inner : List TokenGroup) : Prop :=
  ∀ {o c : Token} {p : Placed} {a b : Nat},
    Scanned s.source.chars a [.pair .curly o inner c] b → block s o inner c = .ok p →
      Reads s.source.chars p ⟨.pair .curly o inner c, []⟩ ∧ p.shape.kind = .block

def ItemsSpec (gs : List TokenGroup) : Prop :=
  ∀ {closer : Token} {os : List Occupant} {a b : Nat}, Scanned s.source.chars a gs b →
    items s closer gs = .ok os → ∃ core sems, gs = core ++ sems ∧
      (∀ g ∈ sems, g.isSemicolon = true) ∧ Rows s.source.chars true core (os.map (·.stmt)) ∧
        Spaced closer.start os ∧ (b ≤ closer.start → ∀ o ∈ os, o.Ordered)

def ClauseSpec (gs : List TokenGroup) : Prop :=
  ∀ {t closer : Token} {step : Step gs} {a b : Nat}, Scanned s.source.chars a (.leaf t :: gs) b →
    t.isSemicolon = false → clause s t closer gs = .ok step →
      ∃ st sems, .leaf t :: gs = st.toList ++ (sems ++ step.rest) ∧
        (∀ g ∈ sems, g.isSemicolon = true) ∧ Stands s.source.chars step.node st ∧
          step.node.shape.kind = .caseClause ∧
            (st.last.lexeme = .op .colon ∨ (sems = [] → step.rest = [])) ∧
              (∀ g ∈ step.rest.head?, isClause g = true) ∧
                (b ≤ closer.start → Rising step.node.span.start step.node.node.starts
                  (next closer step.rest).start)

def ClauseBodySpec (gs : List TokenGroup) : Prop :=
  ∀ {closer : Token} {r : Steps gs} {a b : Nat}, Scanned s.source.chars a gs b →
    clauseBody s closer gs = .ok r → ∃ core sems, gs = core ++ (sems ++ r.rest) ∧
      (∀ g ∈ sems, g.isSemicolon = true) ∧ Rows s.source.chars true core r.nodes ∧
        (core = [] ∨ (sems = [] → r.rest = [])) ∧ (∀ g ∈ r.rest.head?, isClause g = true) ∧
          ∀ p ∈ r.nodes, p.shape.kind ≠ .caseClause

def StmtSpec (st : Stretch) : Prop :=
  ∀ {closer : Token} {step : Step st.tail} {a b : Nat}, Scanned s.source.chars a st.toList b →
    st.head.isSemicolon = false → stmt s closer st = .ok step →
      TakesStmt s.source.chars st.toList step.node step.rest

def LabeledSpec (gs : List TokenGroup) : Prop :=
  ∀ {closer t colon : Token} {name : String} {step : Step gs} {a b : Nat},
    Scanned s.source.chars a (.leaf t :: .leaf colon :: gs) b → t.lexeme = .ident name →
      colon.lexeme = .op .colon → labeled s closer t name colon gs = .ok step →
        TakesStmt s.source.chars (.leaf t :: .leaf colon :: gs) step.node step.rest

def RawStmtSpec (st : Stretch) : Prop :=
  ∀ {step : Step st.tail} {a b : Nat}, Scanned s.source.chars a st.toList b →
    st.head.isSemicolon = false → rawStmt s st = .ok step →
      TakesBare s.source.chars st.toList step.node step.rest

def BodyStmtSpec (gs : List TokenGroup) : Prop :=
  ∀ {t closer : Token} {step : Step gs} {a b : Nat}, Scanned s.source.chars a (.leaf t :: gs) b →
    t.isSemicolon = false → bodyStmt s t closer gs = .ok step →
      TakesBare s.source.chars (.leaf t :: gs) step.node step.rest

def IfStmtSpec (gs : List TokenGroup) : Prop :=
  ∀ {t closer : Token} {step : Step gs} {a b : Nat}, Scanned s.source.chars a (.leaf t :: gs) b →
    t.isSemicolon = false → ifStmt s t closer gs = .ok step →
      TakesBare s.source.chars (.leaf t :: gs) step.node step.rest ∧
        step.node.shape.kind = .rawStmt

def ForStmtSpec (gs : List TokenGroup) : Prop :=
  ∀ {t closer : Token} {step : Step gs} {a b : Nat}, Scanned s.source.chars a (.leaf t :: gs) b →
    t.lexeme = .keyword .kwFor → forStmt s t closer gs = .ok step →
      TakesBare s.source.chars (.leaf t :: gs) step.node step.rest

def RangeVarsSpec (bound : List TokenGroup) : Prop :=
  ∀ {gs : List TokenGroup} {r : Option String × List Placed} {a b : Nat},
    Scanned s.source.chars a bound b → Opened bound.dropLast → rangeVars s gs bound = .ok r →
      Rowed s.source.chars a r.2 b ∧ (∀ p ∈ r.2, p.shape.kind.isExpr = true) ∧ r.2.length ≤ 2

def VarStmtSpec (gs : List TokenGroup) : Prop :=
  ∀ {t closer : Token} {step : Step gs} {a b : Nat}, Scanned s.source.chars a (.leaf t :: gs) b →
    t.isSemicolon = false → varStmt s t closer gs = .ok step →
      TakesBare s.source.chars (.leaf t :: gs) step.node step.rest

def VarTypeSpec (gs : List TokenGroup) : Prop :=
  ∀ {o : Option Placed} {a b : Nat}, Scanned s.source.chars a gs b →
    (∀ g ∈ gs, g.isSemicolon = false) → varType s gs = .ok o →
    Rowed s.source.chars a o.toList b ∧ ∀ p ∈ o, p.shape.kind.isExpr = true

def ExprsSpec (gs : List TokenGroup) : Prop :=
  ∀ {ps : List Placed} {a b : Nat}, Scanned s.source.chars a gs b → Opened gs →
    exprs s gs = .ok ps → Rowed s.source.chars a ps b ∧ ∀ p ∈ ps, p.shape.kind.isExpr = true

def SimpleSpec (st : Stretch) : Prop :=
  ∀ {step : Step st.tail} {a b : Nat}, Scanned s.source.chars a st.toList b →
    st.head.isSemicolon = false → simple s st = .ok step →
      TakesBare s.source.chars st.toList step.node step.rest

structure Specs (n : Nat) : Prop where
  expr : ∀ {st : Stretch}, 8 * st.size + 1 < n → ExprSpec s st
  primary : ∀ {st : Stretch}, 8 * st.size < n → PrimarySpec s st
  trailers : ∀ {gs : List TokenGroup}, 8 * size gs < n → TrailersSpec s gs
  argument : ∀ {st : Stretch}, 8 * st.size + 2 < n → ArgumentSpec s st
  funcLit : ∀ {gs : List TokenGroup}, 8 * size gs < n → FuncLitSpec s gs
  funcType : ∀ {inner : List TokenGroup}, 8 * size inner + 2 < n → FuncTypeSpec s inner
  rawNodes : ∀ {gs : List TokenGroup}, 8 * size gs < n → RawNodesSpec s gs
  block : ∀ {inner : List TokenGroup}, 8 * size inner + 6 < n → BlockSpec s inner
  items : ∀ {gs : List TokenGroup}, 8 * size gs + 5 < n → ItemsSpec s gs
  clause : ∀ {gs : List TokenGroup}, 8 * size gs + 5 < n → ClauseSpec s gs
  clauseBody : ∀ {gs : List TokenGroup}, 8 * size gs + 5 < n → ClauseBodySpec s gs
  stmt : ∀ {st : Stretch}, 8 * st.size + 4 < n → StmtSpec s st
  labeled : ∀ {gs : List TokenGroup}, 8 * size gs + 5 < n → LabeledSpec s gs
  rawStmt : ∀ {st : Stretch}, 8 * st.size + 1 < n → RawStmtSpec s st
  bodyStmt : ∀ {gs : List TokenGroup}, 8 * size gs < n → BodyStmtSpec s gs
  ifStmt : ∀ {gs : List TokenGroup}, 8 * size gs < n → IfStmtSpec s gs
  forStmt : ∀ {gs : List TokenGroup}, 8 * size gs + 4 < n → ForStmtSpec s gs
  rangeVars : ∀ {bound : List TokenGroup}, 8 * size bound + 3 < n → RangeVarsSpec s bound
  varStmt : ∀ {gs : List TokenGroup}, 8 * size gs + 4 < n → VarStmtSpec s gs
  varType : ∀ {gs : List TokenGroup}, 8 * size gs + 2 < n → VarTypeSpec s gs
  exprs : ∀ {gs : List TokenGroup}, 8 * size gs + 2 < n → ExprsSpec s gs
  simple : ∀ {st : Stretch}, 8 * st.size + 3 < n → SimpleSpec s st

end ParallelTests.Parser
