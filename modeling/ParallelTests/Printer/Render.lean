import ParallelTests.Breach
import ParallelTests.Printer.Page
import ParallelTests.Printer.Rebase

/-!
Printing a tree. A node prints its pieces; a block prints a statement a line, one tab deeper than
the line that holds its brace; a node without pieces prints from what it is made of.
-/

namespace ParallelTests.Printer

abbrev Result := Except Breach

def verbatim (rebase : Option Rebase) (page : Page) (text : String) : Page :=
  match rebase with
  | none => page.write text
  | some r => page.write (r.apply text)

def needsLine (stmt : Node) : Bool :=
  match stmt.shape with
  | .comment _ | .caseClause .. | .labeled .. => true
  | _ => stmt.layout.trailing.isSome

def fitsLine (stmts : List Node) (lead : Option String) : Bool :=
  lead.isNone && !stmts.any needsLine

def trailing (page : Page) (stmt : Node) : Page :=
  match stmt.layout.trailing with
  | none => page
  | some text => page.write (" " ++ text)

def moved (stmt : Node) (indent : String) : Option Rebase :=
  match stmt.layout.indent with
  | none => none
  | some old => if old = indent then none else some ⟨old, indent⟩

mutual

def emit (rebase : Option Rebase) (page : Page) (n : Node) : Result Page :=
  match n with
  | .mk _ _ _ (.block stmts oneLine lead) => do
    let base := page.indent
    if stmts.isEmpty && lead.isNone then
      return page.write (if oneLine then "\x7b\x7d" else "\x7b\n" ++ base ++ "\x7d")
    else if oneLine && fitsLine stmts lead then
      return (← emitAll rebase "; " (page.write "\x7b ") stmts).write " \x7d"
    else
      let opening := "\x7b" ++ (lead.map (" " ++ ·)).getD "" ++ "\n"
      return (← emitLines rebase base true (page.write opening) stmts).write (base ++ "\x7d")
  | .mk span layout (some pieces) shape =>
    pieces.attach.foldlM (fun page ⟨p, hp⟩ =>
      match p, hp with
      | .text text, _ => return verbatim rebase page text
      | .child i, _ =>
        match h : (Node.mk span layout (some pieces) shape).children[i]? with
        | some c =>
          have := Node.weight_lt_of_mem_children (List.mem_of_getElem? h)
          emit rebase page c
        | none => return page
      | .inline m, hp =>
        have := Piece.weight_le_of_mem hp
        emit rebase page m) page
  | .mk _ _ none shape =>
    match shape with
    | .ident text | .basicLit text | .comment text => return page.write text
    | .selector x sel => do
      let page ← emit rebase page x
      emit rebase (page.write ".") sel
    | .star x => emit rebase (page.write "*") x
    | .exprStmt x => emit rebase page x
    | .call callee args ellipsis => do
      let page ← emit rebase page callee
      let page ← emitAll rebase ", " (page.write "(") args
      return page.write (if ellipsis then "...)" else ")")
    | .funcLit signature _ body => emit rebase (page.write (signature ++ " ")) body
    | .assign lhs tok rhs => do
      let page ← emitAll rebase ", " page lhs
      emitAll rebase ", " (page.write (" " ++ tok ++ " ")) rhs
    | .varStmt names type values => do
      let page ← emitAll rebase ", " (page.write "var ") names
      let page ←
        match type with
        | none => pure page
        | some type => emit rebase (page.write " ") type
      if values.isEmpty then return page
      else emitAll rebase ", " (page.write " = ") values
    | .rangeStmt key value tok x body => do
      let page := page.write "for "
      let page ←
        match key with
        | none => pure page
        | some key => do
          let page ← emit rebase page key
          let page ←
            match value with
            | none => pure page
            | some value => emit rebase (page.write ", ") value
          pure (page.write (" " ++ tok.getD "None" ++ " "))
      let page ← emit rebase (page.write "range ") x
      emit rebase (page.write " ") body
    | other => .error (.noPrinter other.kind)
termination_by 3 * n.weight
decreasing_by all_goals
  (try simp only [Node.weight, Node.weight?, Shape.weight, Piece.weight, Piece.weights?] at *)
  omega

def emitAll (rebase : Option Rebase) (sep : String) (page : Page) (ns : List Node) : Result Page :=
  match ns with
  | [] => return page
  | [n] => emit rebase page n
  | n :: rest => do
    have := n.weight_pos
    let page ← emit rebase page n
    emitAll rebase sep (page.write sep) rest
termination_by 3 * Node.weights ns + 1
decreasing_by all_goals simp only [Node.weights]; omega

def emitLines (rebase : Option Rebase) (base : String) (first : Bool) (page : Page)
    (stmts : List Node) : Result Page :=
  match stmts with
  | [] => return page
  | stmt :: rest => do
    have := stmt.weight_pos
    let page := if !first && stmt.layout.blankBefore then page.write "\n" else page
    let page ← emitLine rebase base page stmt
    emitLines rebase base false page rest
termination_by 3 * Node.weights stmts + 2
decreasing_by all_goals simp only [Node.weights]; omega

def emitLine (rebase : Option Rebase) (base : String) (page : Page) (stmt : Node) :
    Result Page := do
  let inner := base ++ "\t"
  match stmt with
  | .mk span layout pieces (.caseClause header body) =>
    let page ← emit rebase (page.write base) header
    let page := if body.isEmpty then trailing page (.mk span layout pieces (.caseClause header body))
      else page
    emitLines rebase base true (page.write "\n") body
  | .mk span layout pieces (.labeled label none) =>
    let page ← emit rebase (page.write base) label
    return (trailing (page.write ":") (.mk span layout pieces (.labeled label none))).write "\n"
  | .mk span layout pieces (.labeled label (some inside)) =>
    let page ← emit rebase (page.write base) label
    let page := (page.write ":").write ("\n" ++ inner)
    let page ← emit (moved inside inner) page inside
    let owner := if inside.layout.trailing.isSome then inside
      else .mk span layout pieces (.labeled label (some inside))
    return (trailing page owner).write "\n"
  | stmt =>
    let page ← emit (moved stmt inner) (page.write inner) stmt
    return (trailing page stmt).write "\n"
termination_by 3 * stmt.weight + 1
decreasing_by all_goals
  (try simp only [Node.weight, Node.weight?, Shape.weight] at *)
  omega

end

end ParallelTests.Printer

namespace ParallelTests

def Node.render (n : Node) : Except PrintError String :=
  match Printer.emit none .empty n with
  | .ok page => .ok page.text
  | .error breach => .error ⟨n.kind, breach⟩

end ParallelTests
