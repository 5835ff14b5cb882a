import ParallelTests.Parser.Grammar

namespace ParallelTests.Parser

open TokenGroup

variable (s : TokenStream)

def failAtEnd {α : Type} (reason : Reason) : Result α := .error ⟨reason, s.source.size⟩

def importSpec (follow : Token) (ts : List Token) : Result Placed :=
  match ts with
  | [] => fail .malformedImport follow
  | [path] => spec none path
  | [name, path] => spec (some name.text) path
  | t :: _ => fail .malformedImport t
where
  spec (name : Option String) (t : Token) : Result Placed :=
    match t.lexeme with
    | .string text =>
      let path := String.ofList text.toList.tail.dropLast
      .ok { span := .ofToken t, shape := .importSpec name path }
    | _ => fail .malformedImport t

def verbatim (span : Span) (shape : Shape) : Placed :=
  { span := span, shape := shape, pieces := some [.text (s.source.slice span.start span.stop)] }

def statementSpan (t : Token) (gs : List TokenGroup) : Span :=
  (⟨.leaf t, upTo isSemicolon gs⟩ : Stretch).span

def importDecl (t : Token) (gs : List TokenGroup) : Result (Step gs) :=
  match gs with
  | [] => failAtEnd s .endOfFile
  | g :: rest => do
    let specs ←
      match g with
      | .pair .round _ inner c =>
        (Stretch.split isSemicolon inner).mapM fun st => importSpec c (tokens st.toList)
      | _ => do
        let ts := tokens (upTo isSemicolon (g :: rest))
        let spec ← importSpec g.first ts
        pure [spec]
    let node := verbatim s (statementSpan t (g :: rest)) (.importDecl (specs.map Placed.node))
    return ⟨node, since isSemicolon (g :: rest), since_suffix _ _⟩

def typeParams (name : Token) (gs : List TokenGroup) : Bool × List TokenGroup :=
  match gs with
  | .pair .square o _ _ :: more => if o.start = name.stop then (true, more) else (false, gs)
  | _ => (false, gs)

def aliasMark (gs : List TokenGroup) : Bool × List TokenGroup :=
  match gs with
  | .leaf t :: more => if t.isOp .assign then (true, more) else (false, gs)
  | _ => (false, gs)

def typeSpec (follow : Token) (gs : List TokenGroup) : Result (Option Placed) :=
  match gs with
  | [] => do
    let _ ← identifier follow
    return none
  | g :: rest => do
    let name ← identifier g.first
    let (generic, rest) := typeParams g.first rest
    let (isAlias, rest) := aliasMark rest
    match Stretch.ofList? rest with
    | none => return none
    | some st =>
      let type ← expr s (generic && !isAlias) st
      let span := (⟨g, gs.tail⟩ : Stretch).span
      return some { span := span, shape := .typeSpec name.node isAlias type.node }

def typeDecl (t : Token) (gs : List TokenGroup) : Result (Step gs) :=
  match gs with
  | [] => failAtEnd s .endOfFile
  | g :: rest => do
    let specs ←
      match g with
      | .pair .round _ inner c =>
        (Stretch.split isSemicolon inner).mapM fun st => typeSpec s c st.toList
      | _ => do
        let spec ← typeSpec s g.first (upTo isSemicolon (g :: rest))
        pure [spec]
    let shape := Shape.typeDecl ((specs.filterMap id).map Placed.node)
    let node := verbatim s (statementSpan t (g :: rest)) shape
    return ⟨node, since isSemicolon (g :: rest), since_suffix _ _⟩

def receiver (gs : List TokenGroup) : Option String × List TokenGroup :=
  match gs with
  | .pair .round o _ c :: rest => (some (s.source.slice o.start c.stop), rest)
  | _ => (none, gs)

theorem receiver_suffix (gs : List TokenGroup) : (receiver s gs).2 <:+ gs := by
  unfold receiver
  split
  · exact List.suffix_cons _ _
  · exact List.suffix_refl _

def afterTypeParams (gs : List TokenGroup) : List TokenGroup :=
  match gs with
  | .pair .square _ _ _ :: rest => rest
  | _ => gs

theorem afterTypeParams_suffix (gs : List TokenGroup) : afterTypeParams gs <:+ gs := by
  unfold afterTypeParams
  split
  · exact List.suffix_cons _ _
  · exact List.suffix_refl _

def funcRest (t : Token) (recv : Option String) (name : Placed) (gs : List TokenGroup) :
    Result (Step gs) :=
  match gs with
  | .pair .round o params c :: rest => do
    let type ← funcType s o params c
    match h : signatureEnd c rest with
    | (_, .pair .curly bo inner bc :: after) =>
      have hs := (suffix_of_signatureEnd h).trans (List.suffix_cons (.pair .round o params c) rest)
      let body ← block s bo inner bc
      let span := Span.ofTokens t bc
      let signature := Text.trimEnd Text.isSpace (s.source.slice t.start bo.start)
      let node : Placed :=
        { span := span, shape := .funcDecl name.node type.node signature recv (some body.node)
          pieces := s.source.pieces span 1 [body] }
      return ⟨node, after, (List.suffix_cons _ _).trans hs⟩
    | (last, stop) =>
      have hs := suffix_of_signatureEnd h
      let span := Span.ofTokens t last
      let text := s.source.slice span.start span.stop
      let node := verbatim s span (.funcDecl name.node type.node text recv none)
      return ⟨node, stop, hs.trans (List.suffix_cons _ _)⟩
  | g :: _ => fail (.expectedOperator (.opening .round) (some g.first.shown)) g.first
  | [] => failAtEnd s (.expectedOperator (.opening .round) none)

def funcDecl (t : Token) (gs : List TokenGroup) : Result (Step gs) :=
  match gs with
  | [] => failAtEnd s .endOfFile
  | g :: rest =>
    match h : receiver s (g :: rest) with
    | (_, []) => failAtEnd s .endOfFile
    | (recv, n :: more) => do
      have hm : more <:+ g :: rest := by
        have := receiver_suffix s (g :: rest)
        rw [h] at this
        exact (List.suffix_cons _ _).trans this
      let name ← identifier n.first
      if more.isEmpty then failAtEnd s .endOfFile
      else
        let step ← funcRest s t recv name (afterTypeParams more)
        return step.mono ((afterTypeParams_suffix more).trans hm)

def genDecl (t : Token) (gs : List TokenGroup) : Result (Step gs) := do
  let nodes ← rawNodes s false (upTo isSemicolon gs)
  return ⟨raw s.source (statementSpan t gs) .genDecl nodes, _, since_suffix isSemicolon gs⟩

def decl (t : Token) (gs : List TokenGroup) : Result (Step gs) :=
  match t.lexeme with
  | .keyword .kwImport => importDecl s t gs
  | .keyword .kwFunc => funcDecl s t gs
  | .keyword .kwType => typeDecl s t gs
  | .keyword .kwVar | .keyword .kwConst => genDecl s t gs
  | _ => fail (.notTopLevel t.text) t

def decls (gs : List TokenGroup) : Result (List Placed) :=
  match gs with
  | [] => return []
  | g :: rest => do
    if g.isSemicolon then decls rest
    else
      let step ← decl s g.first rest
      have := step.rest_suffix.length_le
      return step.node :: (← decls step.rest)
termination_by gs.length

def importSpecs (p : Placed) : List Node :=
  match p.shape with
  | .importDecl specs => specs
  | _ => []

def file (package : String) (decls : List Placed) : Placed :=
  let src := s.source
  { span := ⟨0, src.size, 1, 1, src.lineOf (src.size - 1 : Nat)⟩
    shape := .file src.path package (decls.flatMap importSpecs) (decls.map Placed.node)
    pieces := some (src.weave 0 src.size 0 decls) }

def stream : Result Placed :=
  match s.groups with
  | [] => failAtEnd s .noPackage
  | .leaf t :: rest => do
    if t.isKeyword .kwPackage then
      match rest with
      | [] => failAtEnd s .endOfFile
      | g :: rest =>
        let package ← identifier g.first
        return file s package.node.name (← decls s rest)
    else fail .noPackage t
  | g :: _ => fail .noPackage g.first

end ParallelTests.Parser

namespace ParallelTests

def Source.parse? (src : Source) : Except Issue Node := do
  let stream ← TokenStream.ofSource src
  return (← Parser.stream stream).node

def Source.parse (src : Source) : Except ParseError Node :=
  src.parse?.mapError src.locate

end ParallelTests
