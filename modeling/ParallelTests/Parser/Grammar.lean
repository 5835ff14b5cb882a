import ParallelTests.Parser.Basic

/-!
The grammar: expressions, function literals, blocks, clauses and statements, each by recursion on
the groups it is read from.
-/

namespace ParallelTests.Parser

open TokenGroup

def raw (src : Source) (span : Span) (shape : List Node → Shape) (nodes : List Placed) : Placed :=
  { span := span, shape := shape (nodes.map Placed.node), pieces := src.pieces span 0 nodes }

def indented (src : Source) (p : Placed) : Placed :=
  { p with layout := { p.layout with indent := src.indentAt p.span.start } }

def isClause : TokenGroup → Bool
  | .leaf t => t.isKeyword .kwCase || t.isKeyword .kwDefault
  | .pair .. => false

def expectEnd : List TokenGroup → Result Unit
  | [] => .ok ()
  | g :: _ => if g.isSemicolon then .ok () else fail (.expectedSemicolon g.first.text) g.first

def isTurn : TokenGroup → Bool
  | .leaf t =>
    match t.lexeme with
    | .op o => o.assigns || o = .inc || o = .dec || o = .arrow
    | _ => false
  | .pair .. => false

variable (s : TokenStream)

mutual

def expr (afterElement : Bool) (st : Stretch) : Result Placed := do
  match ← primary st with
  | some ⟨node, [], _⟩ => return node
  | _ =>
    let nodes ← rawNodes afterElement st.toList
    return raw s.source st.span .rawExpr nodes
termination_by 8 * st.size + 1
decreasing_by all_goals
  (try simp only [Stretch.size_toList] at *)
  omega

def primary (st : Stretch) : Result (Option (Step st.tail)) :=
  match st.head with
  | .pair .. => return none
  | .leaf t =>
    match t.lexeme with
    | .op (.arith .mul) =>
      match h : Stretch.ofList? st.tail with
      | none => return none
      | some inner => do
        have hi : st.tail = inner.toList := Stretch.ofList?_eq_some_iff.1 h
        have := st.size_tail_lt
        have := Stretch.size_of_ofList? h
        match ← primary inner with
        | none => return none
        | some step =>
          let span := (Span.ofToken t).through step.node.span
          let node : Placed :=
            { span := span, shape := .star step.node.node,
              pieces := s.source.pieces span 0 [step.node] }
          return some ⟨node, step.rest, step.rest_suffix.trans (hi ▸ List.suffix_cons _ _)⟩
    | .ident name => do
      have := st.size_tail_lt
      return some (← trailers t (.ident t name) st.tail)
    | .number _ | .rune _ | .string _ => do
      have := st.size_tail_lt
      return some (← trailers t (.basicLit t) st.tail)
    | .keyword .kwFunc => do
      have := st.size_tail_lt
      match ← funcLit t st.tail with
      | none => return none
      | some step =>
        have := size_le_of_suffix step.rest_suffix
        return some ((← trailers t step.node step.rest).mono step.rest_suffix)
    | _ => return none
termination_by 8 * st.size
decreasing_by all_goals omega

def trailers (start : Token) (node : Placed) (gs : List TokenGroup) : Result (Step gs) :=
  match gs with
  | .leaf p :: .leaf n :: rest =>
    match p.lexeme, n.lexeme with
    | .op .period, .ident name => do
      let sel := Placed.ident n name
      let span := Span.ofTokens start n
      let node : Placed :=
        { span := span, shape := .selector node.node sel.node,
          pieces := s.source.pieces span 0 [node, sel] }
      let step ← trailers start node rest
      return step.mono ((List.suffix_cons _ _).trans (List.suffix_cons _ _))
    | _, _ => return ⟨node, _, List.suffix_refl _⟩
  | .pair .round _ inner c :: rest => do
    let args ← (Stretch.split (isOp .comma) inner).attach.mapM fun ⟨a, h⟩ => do
      have := Stretch.size_le_of_mem_split h
      argument a
    let span := Span.ofTokens start c
    let nodes := args.map (·.1)
    let call := Shape.call node.node (nodes.map Placed.node) (args.any (·.2))
    let node : Placed :=
      { span := span, shape := call, pieces := s.source.pieces span 0 (node :: nodes) }
    let step ← trailers start node rest
    return step.mono (List.suffix_cons _ _)
  | gs => return ⟨node, gs, List.suffix_refl _⟩
termination_by 8 * size gs
decreasing_by all_goals
  (try simp only [size_cons, weight_leaf, weight_pair] at *)
  omega

def argument (st : Stretch) : Result (Placed × Bool) :=
  match h : dropEllipsis? st with
  | none => return (← expr false st, false)
  | some gs =>
    match h' : Stretch.ofList? gs with
    | none => fail .expectedExpression st.first
    | some inner => do
      have : inner.size ≤ st.size := by
        have := size_dropLast_le st.toList
        rwa [← eq_dropLast_of_dropEllipsis? h, ← Stretch.size_of_ofList? h'] at this
      return (← expr false inner, true)
termination_by 8 * st.size + 2
decreasing_by all_goals omega

def funcLit (t : Token) (gs : List TokenGroup) : Result (Option (Step gs)) :=
  match gs with
  | .pair .round o params c :: rest =>
    match h : signatureEnd c rest with
    | (_, .pair .curly bo inner bc :: after) => do
      have hs := suffix_of_signatureEnd h
      have := size_le_of_suffix hs
      let type ← funcType o params c
      let body ← block bo inner bc
      let span := Span.ofTokens t bc
      let signature := Text.trimEnd Text.isSpace (s.source.slice t.start bo.start)
      let node : Placed :=
        { span := span, shape := .funcLit signature type.node body.node,
          pieces := s.source.pieces span 1 [body] }
      return some ⟨node, after, ((List.suffix_cons _ _).trans hs).trans (List.suffix_cons _ _)⟩
    | _ => return none
  | _ => return none
termination_by 8 * size gs
decreasing_by all_goals
  (try simp only [size_cons, weight_pair] at *)
  omega

def funcType (o : Token) (inner : List TokenGroup) (c : Token) : Result Placed := do
  let entries := Stretch.split (isOp .comma) inner
  let span := Span.ofTokens o c
  if entries.any (paramName? · |>.isSome) then
    let params ← entries.attach.mapM fun ⟨st, h⟩ => do
      have := Stretch.size_le_of_mem_split h
      match hp : paramName? st with
      | some (t, name, type) =>
        have := size_lt_of_paramName? hp
        return Param.typed st.span (.ident t name) (← expr false type)
      | none =>
        match singleIdent? st with
        | some ident => return Param.name ident
        | none => fail .mixedParameters st.first
    match fields [] params with
    | (done, []) => return { span := span, shape := .funcType (done.map Placed.node) }
    | _ => fail .missingParameterType c
  else
    let params ← entries.attach.mapM fun ⟨st, h⟩ => do
      have := Stretch.size_le_of_mem_split h
      let type ← expr false st
      return ({ span := st.span, shape := .field [] type.node } : Placed)
    return { span := span, shape := .funcType (params.map Placed.node) }
termination_by 8 * size inner + 2
decreasing_by all_goals omega

def rawNodes (afterElement : Bool) (gs : List TokenGroup) : Result (List Placed) :=
  match gs with
  | [] => return []
  | .leaf t :: rest => do
    if t.isKeyword .kwFunc && !afterElement then
      match ← funcLit t rest with
      | some step =>
        have := size_le_of_suffix step.rest_suffix
        return step.node :: (← rawNodes false step.rest)
      | none => rawNodes false rest
    else rawNodes (t.isKeyword .kwChan) rest
  | .pair b _ inner _ :: rest => do
    let here ← rawNodes false inner
    return here ++ (← rawNodes (b = .square) rest)
termination_by 8 * size gs
decreasing_by all_goals
  (try simp only [size_cons, weight_leaf, weight_pair] at *)
  omega

def block (o : Token) (inner : List TokenGroup) (c : Token) : Result Placed := do
  let occupants ← items c inner
  let (stmts, lead) := Attach.attach s.comments o c occupants
  return { span := .ofTokens o c
           shape := .block (stmts.map Placed.node) (o.line = c.line) lead }
termination_by 8 * size inner + 6
decreasing_by all_goals omega

def items (closer : Token) (gs : List TokenGroup) : Result (List Occupant) :=
  match gs with
  | [] => return []
  | g :: rest => do
    have := weight_pos g
    if g.isSemicolon then items closer rest
    else if isClause g then
      let step ← clause g.first closer rest
      have := size_le_of_suffix step.rest_suffix
      return ⟨step.node, (next closer step.rest).start⟩ :: (← items closer step.rest)
    else
      let step ← stmt closer ⟨g, rest⟩
      have := size_le_of_suffix step.rest_suffix
      expectEnd step.rest
      let node := indented s.source step.node
      return ⟨node, node.span.stop⟩ :: (← items closer step.rest)
termination_by 8 * size gs + 5
decreasing_by all_goals
  (try simp only [Stretch.size_mk, size_cons] at *)
  omega

def clause (t closer : Token) (gs : List TokenGroup) : Result (Step gs) :=
  match h : since (isOp .colon) gs with
  | [] => fail .expectedColon t
  | colon :: after => do
    have := size_upTo_le (isOp .colon) gs
    have hs : colon :: after <:+ gs := h ▸ since_suffix _ _
    have : colon.weight + size after ≤ size gs := size_le_of_suffix hs
    have := weight_pos colon
    let nodes ← rawNodes false (upTo (isOp .colon) gs)
    let header := raw s.source (.ofTokens t colon.first) .rawExpr nodes
    let body ← clauseBody closer after
    let occupants := body.nodes.map fun p => ⟨p, p.span.stop⟩
    let (stmts, lead) := Attach.attach s.comments colon.first (next closer body.rest) occupants
    let header :=
      match lead with
      | none => header
      | some text => { header with pieces := header.pieces.map (· ++ [.text (" " ++ text)]) }
    let last := (body.nodes.getLastD header).span
    let node : Placed :=
      { span := header.span.through last
        shape := .caseClause header.node (stmts.map Placed.node) }
    return ⟨node, body.rest, (body.rest_suffix.trans (List.suffix_cons _ _)).trans hs⟩
termination_by 8 * size gs + 5
decreasing_by all_goals omega

def clauseBody (closer : Token) (gs : List TokenGroup) : Result (Steps gs) :=
  match gs with
  | [] => return ⟨[], [], List.suffix_refl _⟩
  | g :: rest => do
    have := weight_pos g
    if isClause g then return ⟨[], g :: rest, List.suffix_refl _⟩
    else if g.isSemicolon then
      return (← clauseBody closer rest).mono (List.suffix_cons _ _)
    else
      let step ← stmt closer ⟨g, rest⟩
      have := size_le_of_suffix step.rest_suffix
      expectEnd step.rest
      let more ← clauseBody closer step.rest
      return ⟨indented s.source step.node :: more.nodes, more.rest,
        (more.rest_suffix.trans step.rest_suffix).trans (List.suffix_cons _ _)⟩
termination_by 8 * size gs + 5
decreasing_by all_goals
  (try simp only [Stretch.size_mk, size_cons] at *)
  omega

def stmt (closer : Token) (st : Stretch) : Result (Step st.tail) :=
  have := st.size_tail_lt
  match hd : st.head with
  | .pair .curly o inner c => do
    have : size inner < st.size := by
      simp only [Stretch.size, Stretch.toList, hd, size_cons, weight_pair]
      omega
    return ⟨← block o inner c, st.tail, List.suffix_refl _⟩
  | .pair .. => simple st
  | .leaf t =>
    match t.lexeme with
    | .ident name =>
      match ht : st.tail with
      | .leaf colon :: rest => do
        if colon.isOp .colon then
          have : size rest < size st.tail := by simp [ht]
          let step ← labeled closer t name colon rest
          return step.mono (List.suffix_cons _ _)
        else
          return ht ▸ (← simple st)
      | _ => do return ht ▸ (← simple st)
    | .keyword .kwIf => ifStmt t closer st.tail
    | .keyword .kwFor => forStmt t closer st.tail
    | .keyword .kwSwitch | .keyword .kwSelect => bodyStmt t closer st.tail
    | .keyword .kwVar =>
      match st.tail.head? with
      | some (.pair .round _ _ _) => rawStmt st
      | _ => varStmt t closer st.tail
    | .keyword .kwFunc => simple st
    | .keyword _ => rawStmt st
    | _ => simple st
termination_by 8 * st.size + 4
decreasing_by all_goals omega

def labeled (closer t : Token) (name : String) (colon : Token) (gs : List TokenGroup) :
    Result (Step gs) :=
  let label := Placed.ident t name
  let span := Span.ofTokens t colon
  match gs with
  | [] => return ⟨{ span := span, shape := .labeled label.node none }, [], List.suffix_refl _⟩
  | g :: rest => do
    have := weight_pos g
    if g.isSemicolon then
      return ⟨{ span := span, shape := .labeled label.node none }, g :: rest, List.suffix_refl _⟩
    else
      let step ← stmt closer ⟨g, rest⟩
      let inner := indented s.source step.node
      let node : Placed :=
        { span := span.through inner.span, shape := .labeled label.node (some inner.node) }
      return ⟨node, step.rest, step.rest_suffix.trans (List.suffix_cons _ _)⟩
termination_by 8 * size gs + 5
decreasing_by all_goals
  (try simp only [Stretch.size_mk, size_cons] at *)
  omega

def rawStmt (st : Stretch) : Result (Step st.tail) := do
  have := st.size_statement_le
  let nodes ← rawNodes false st.statement.toList
  return ⟨raw s.source st.statement.span .rawStmt nodes, _, since_suffix isSemicolon st.tail⟩
termination_by 8 * st.size + 1
decreasing_by all_goals
  (try simp only [Stretch.size_toList] at *)
  omega

def bodyStmt (t closer : Token) (gs : List TokenGroup) : Result (Step gs) :=
  match Body.ofStatement gs with
  | none => fail .expectedBlock (next closer gs)
  | some b => do
    have := b.size_eq
    let header ← rawNodes false b.before
    let body ← block b.opener b.inner b.closer
    let span := (Span.ofToken t).through body.span
    return ⟨raw s.source span .rawStmt (header ++ [body]), b.after, b.after_suffix⟩
termination_by 8 * size gs
decreasing_by all_goals omega

def ifStmt (t closer : Token) (gs : List TokenGroup) : Result (Step gs) :=
  match Body.ofStatement gs with
  | none => fail .expectedBlock (next closer gs)
  | some b => do
    have := b.size_eq
    let header ← rawNodes false b.before
    let body ← block b.opener b.inner b.closer
    let finish (nodes : List Placed) (last : Placed) : Placed :=
      raw s.source ((Span.ofToken t).through last.span) .rawStmt nodes
    match ha : b.after with
    | [] => return ⟨finish (header ++ [body]) body, [], List.nil_suffix⟩
    | g :: rest =>
      have hs : g :: rest <:+ gs := ha ▸ b.after_suffix
      have hr : rest <:+ gs := (List.suffix_cons _ _).trans hs
      have hg : size gs = size b.before + (size b.inner + 2 + (g.weight + size rest)) := by
        rw [b.size_eq, ha, size_cons]
      if g.isKeyword .kwElse then
        match he : rest with
        | .leaf i :: more =>
          if i.isKeyword .kwIf then
            have : size rest = 1 + size more := he ▸ rfl
            let step ← ifStmt i closer more
            return ⟨finish (header ++ [body, step.node]) step.node, step.rest,
              step.rest_suffix.trans ((List.suffix_cons _ _).trans (he ▸ hr))⟩
          else fail .expectedElse i
        | .pair .curly o inner c :: more =>
          have : size rest = size inner + 2 + size more := he ▸ rfl
          let alt ← block o inner c
          return ⟨finish (header ++ [body, alt]) alt, more,
            (List.suffix_cons _ _).trans (he ▸ hr)⟩
        | gs => fail .expectedElse (next closer gs)
      else return ⟨finish (header ++ [body]) body, g :: rest, hs⟩
termination_by 8 * size gs
decreasing_by all_goals omega

def forStmt (t closer : Token) (gs : List TokenGroup) : Result (Step gs) :=
  match Body.ofStatement gs with
  | none => fail .expectedBlock (next closer gs)
  | some b => do
    have := b.size_eq
    match hr : since (isKeyword .kwRange) b.before with
    | [] => bodyStmt t closer gs
    | range :: operand =>
      have := size_upTo_le (isKeyword .kwRange) b.before
      have : size operand ≤ size b.before :=
        size_le_of_suffix ((List.suffix_cons range operand).trans (hr ▸ since_suffix _ _))
      let (tok, names) ← rangeVars gs (upTo (isKeyword .kwRange) b.before)
      match h : Stretch.ofList? operand with
      | none => fail .expectedExpression b.opener
      | some st =>
        have := Stretch.size_of_ofList? h
        let x ← expr false st
        let body ← block b.opener b.inner b.closer
        let span := (Span.ofToken t).through body.span
        let key := names.head?.map Placed.node
        let value := names.tail.head?.map Placed.node
        let node : Placed :=
          { span := span, shape := .rangeStmt key value tok x.node body.node
            pieces := s.source.pieces span 0 (names ++ [x, body]) }
        return ⟨node, b.after, b.after_suffix⟩
termination_by 8 * size gs + 4
decreasing_by all_goals omega

def rangeVars (gs bound : List TokenGroup) : Result (Option String × List Placed) :=
  match bound.getLast? with
  | none => return (none, [])
  | some g => do
    if g.isOp .define || g.isOp .assign then
      have := size_dropLast_le bound
      let names ← exprs bound.dropLast
      if names.isEmpty || 2 < names.length then fail .rangeVariables (next g.last gs)
      else return (some g.last.text, names)
    else fail .expectedRangeOperator g.last
termination_by 8 * size bound + 3
decreasing_by all_goals omega

def varStmt (t closer : Token) (gs : List TokenGroup) : Result (Step gs) :=
  match h : varNames (next closer (since isSemicolon gs)) (upTo isSemicolon gs) with
  | .error e => .error e
  | .ok (names, rest) => do
    have := size_le_of_suffix (suffix_of_varNames h)
    have := size_upTo_le isSemicolon gs
    have := size_upTo_le (isOp .assign) rest
    have := size_le_of_suffix ((List.tail_suffix _).trans (since_suffix (isOp .assign) rest))
    let type ← varType (upTo (isOp .assign) rest)
    let values ← exprs (since (isOp .assign) rest).tail
    let span := (⟨.leaf t, upTo isSemicolon gs⟩ : Stretch).span
    let shape := Shape.varStmt (names.map Placed.node) (type.map Placed.node)
      (values.map Placed.node)
    let node : Placed :=
      { span := span, shape := shape
        pieces := s.source.pieces span 0 (names ++ type.toList ++ values) }
    return ⟨node, _, since_suffix isSemicolon gs⟩
termination_by 8 * size gs + 4
decreasing_by all_goals omega

def varType (gs : List TokenGroup) : Result (Option Placed) :=
  match h : Stretch.ofList? gs with
  | none => return none
  | some st => do
    have := Stretch.size_of_ofList? h
    return some (← expr false st)
termination_by 8 * size gs + 2
decreasing_by all_goals omega

def exprs (gs : List TokenGroup) : Result (List Placed) :=
  (Stretch.split (isOp .comma) gs).attach.mapM fun ⟨st, h⟩ => do
    have := Stretch.size_le_of_mem_split h
    expr false st
termination_by 8 * size gs + 2
decreasing_by all_goals omega

def simple (st : Stretch) : Result (Step st.tail) :=
  have := st.size_statement_le
  have := size_upTo_le isTurn st.statement.toList
  let span := st.statement.span
  match h : since isTurn st.statement.toList with
  | [] => do
    let x ← expr false st.statement
    let node : Placed :=
      { span := span, shape := .exprStmt x.node, pieces := s.source.pieces span 0 [x] }
    return ⟨node, _, since_suffix isSemicolon st.tail⟩
  | turn :: right => do
    have := size_le_of_suffix ((List.suffix_cons turn right).trans (h ▸ since_suffix _ _))
    match turn.first.lexeme with
    | .op .inc | .op .dec | .op .arrow => rawStmt st
    | _ =>
      let lhs ← exprs (upTo isTurn st.statement.toList)
      let rhs ← exprs right
      if lhs.isEmpty || rhs.isEmpty then fail .malformedAssignment turn.first
      else
        let shape := Shape.assign (lhs.map Placed.node) turn.first.text (rhs.map Placed.node)
        let node : Placed :=
          { span := span, shape := shape, pieces := s.source.pieces span 0 (lhs ++ rhs) }
        return ⟨node, _, since_suffix isSemicolon st.tail⟩
termination_by 8 * st.size + 3
decreasing_by all_goals
  (try simp only [Stretch.size_toList] at *)
  omega

end

end ParallelTests.Parser
