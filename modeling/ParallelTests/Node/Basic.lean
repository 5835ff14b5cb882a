/-!
Trees of a source file. A node keeps the verbatim text it was read from as pieces, in which its
children appear by number, so that a change to a child shows wherever the node is printed.
-/

namespace ParallelTests

structure Span where
  start : Nat
  stop : Nat
  line : Nat
  column : Nat
  endLine : Nat
  deriving DecidableEq, Repr

structure Layout where
  blankBefore : Bool := false
  trailing : Option String := none
  indent : Option String := none
  deriving DecidableEq, Repr

mutual

inductive Node
  | mk (span : Option Span) (layout : Layout) (pieces : Option (List Piece)) (shape : Shape)

/-- A part of a node's text: verbatim, the child with a number, or a node of its own that is no
child. -/
inductive Piece
  | text (text : String)
  | child (index : Nat)
  | inline (node : Node)

inductive Shape
  | ident (name : String)
  | basicLit (value : String)
  | selector (x sel : Node)
  | star (x : Node)
  | call (callee : Node) (args : List Node) (ellipsis : Bool)
  | field (names : List Node) (type : Node)
  | funcType (params : List Node)
  | funcLit (signature : String) (type body : Node)
  | rawExpr (nodes : List Node)
  | block (stmts : List Node) (oneLine : Bool) (lead : Option String)
  | exprStmt (x : Node)
  | assign (lhs : List Node) (tok : String) (rhs : List Node)
  | varStmt (names : List Node) (type : Option Node) (values : List Node)
  | rangeStmt (key value : Option Node) (tok : Option String) (x body : Node)
  | caseClause (header : Node) (body : List Node)
  | labeled (label : Node) (stmt : Option Node)
  | rawStmt (nodes : List Node)
  | comment (text : String)
  | importSpec (name : Option String) (path : String)
  | importDecl (specs : List Node)
  | typeSpec (name : Node) (isAlias : Bool) (type : Node)
  | typeDecl (specs : List Node)
  | genDecl (nodes : List Node)
  | funcDecl (name type : Node) (signature : String) (recv : Option String) (body : Option Node)
  | file (path package : String) (imports decls : List Node)
  | unknown (kind : String)

end

inductive Kind
  | ident | basicLit | selector | star | call | field | funcType | funcLit | rawExpr | block
  | exprStmt | assign | varStmt | rangeStmt | caseClause | labeled | rawStmt | comment
  | importSpec | importDecl | typeSpec | typeDecl | genDecl | funcDecl | file
  | unknown (name : String)
  deriving DecidableEq, Repr

namespace Kind

def name : Kind → String
  | ident => "Ident"
  | basicLit => "BasicLit"
  | selector => "SelectorExpr"
  | star => "StarExpr"
  | call => "CallExpr"
  | field => "Field"
  | funcType => "FuncType"
  | funcLit => "FuncLit"
  | rawExpr => "RawExpr"
  | block => "BlockStmt"
  | exprStmt => "ExprStmt"
  | assign => "AssignStmt"
  | varStmt => "VarStmt"
  | rangeStmt => "RangeStmt"
  | caseClause => "CaseClause"
  | labeled => "LabeledStmt"
  | rawStmt => "RawStmt"
  | comment => "Comment"
  | importSpec => "ImportSpec"
  | importDecl => "ImportDecl"
  | typeSpec => "TypeSpec"
  | typeDecl => "TypeDecl"
  | genDecl => "GenDecl"
  | funcDecl => "FuncDecl"
  | file => "File"
  | unknown name => name

end Kind

namespace Shape

def kind : Shape → Kind
  | ident .. => .ident
  | basicLit .. => .basicLit
  | selector .. => .selector
  | star .. => .star
  | call .. => .call
  | field .. => .field
  | funcType .. => .funcType
  | funcLit .. => .funcLit
  | rawExpr .. => .rawExpr
  | block .. => .block
  | exprStmt .. => .exprStmt
  | assign .. => .assign
  | varStmt .. => .varStmt
  | rangeStmt .. => .rangeStmt
  | caseClause .. => .caseClause
  | labeled .. => .labeled
  | rawStmt .. => .rawStmt
  | comment .. => .comment
  | importSpec .. => .importSpec
  | importDecl .. => .importDecl
  | typeSpec .. => .typeSpec
  | typeDecl .. => .typeDecl
  | genDecl .. => .genDecl
  | funcDecl .. => .funcDecl
  | file .. => .file
  | unknown name => .unknown name

def children : Shape → List Node
  | ident _ | basicLit _ | comment _ | importSpec _ _ | importDecl _ | unknown _ => []
  | selector x sel => [x, sel]
  | star x | exprStmt x => [x]
  | call callee args _ => callee :: args
  | field names type => names ++ [type]
  | funcType params => params
  | funcLit _ type body => [type, body]
  | rawExpr nodes | rawStmt nodes | genDecl nodes => nodes
  | block stmts _ _ => stmts
  | assign lhs _ rhs => lhs ++ rhs
  | varStmt names type values => names ++ type.toList ++ values
  | rangeStmt key value _ x body => key.toList ++ value.toList ++ [x, body]
  | caseClause header body => header :: body
  | labeled label stmt => label :: stmt.toList
  | typeSpec name _ type => [name, type]
  | typeDecl specs => specs
  | funcDecl _ type _ _ body => type :: body.toList
  | file _ _ _ decls => decls

def mapChildren (f : Nat → Node → Node) : Shape → Shape
  | selector x sel => selector (f 0 x) (f 1 sel)
  | star x => star (f 0 x)
  | exprStmt x => exprStmt (f 0 x)
  | call callee args ellipsis => call (f 0 callee) (args.mapIdx fun i a => f (i + 1) a) ellipsis
  | field names type => field (names.mapIdx f) (f names.length type)
  | funcType params => funcType (params.mapIdx f)
  | funcLit signature type body => funcLit signature (f 0 type) (f 1 body)
  | rawExpr nodes => rawExpr (nodes.mapIdx f)
  | rawStmt nodes => rawStmt (nodes.mapIdx f)
  | genDecl nodes => genDecl (nodes.mapIdx f)
  | block stmts oneLine lead => block (stmts.mapIdx f) oneLine lead
  | assign lhs tok rhs => assign (lhs.mapIdx f) tok (rhs.mapIdx fun i a => f (i + lhs.length) a)
  | varStmt names type values =>
    varStmt (names.mapIdx f) (type.map (f names.length))
      (values.mapIdx fun i a => f (i + (type.toList.length + names.length)) a)
  | rangeStmt key value tok x body =>
    let bound := key.toList.length + value.toList.length
    rangeStmt (key.map (f 0)) (value.map (f key.toList.length)) tok (f bound x) (f (bound + 1) body)
  | caseClause header body => caseClause (f 0 header) (body.mapIdx fun i a => f (i + 1) a)
  | labeled label stmt => labeled (f 0 label) (stmt.map (f 1))
  | typeSpec name isAlias type => typeSpec (f 0 name) isAlias (f 1 type)
  | typeDecl specs => typeDecl (specs.mapIdx f)
  | funcDecl name type signature recv body =>
    funcDecl name (f 0 type) signature recv (body.map (f 1))
  | file path package imports decls => file path package imports (decls.mapIdx f)
  | leaf => leaf

theorem children_mapChildren (f : Nat → Node → Node) (s : Shape) :
    (s.mapChildren f).children = s.children.mapIdx f := by
  cases s with
  | varStmt names type values =>
    cases type <;> simp [mapChildren, children, List.mapIdx_append, List.mapIdx_cons, Nat.add_assoc]
  | rangeStmt key value tok x body =>
    cases key <;> cases value <;> simp [mapChildren, children, List.mapIdx_cons]
  | labeled label stmt => cases stmt <;> simp [mapChildren, children, List.mapIdx_cons]
  | funcDecl name type signature recv body =>
    cases body <;> simp [mapChildren, children, List.mapIdx_cons]
  | _ => simp [mapChildren, children, List.mapIdx_cons, List.mapIdx_append]

end Shape

namespace Node

def span : Node → Option Span
  | mk span _ _ _ => span

def layout : Node → Layout
  | mk _ layout _ _ => layout

def pieces : Node → Option (List Piece)
  | mk _ _ pieces _ => pieces

def shape : Node → Shape
  | mk _ _ _ shape => shape

def kind (n : Node) : Kind := n.shape.kind

def children (n : Node) : List Node := n.shape.children

def bare (shape : Shape) : Node := mk none {} none shape

def withShape : Node → Shape → Node
  | mk span layout pieces _, shape => mk span layout pieces shape

def ident? (n : Node) : Option String :=
  match n.shape with
  | .ident name => some name
  | _ => none

theorem ident?_eq_some_iff {n : Node} {name : String} :
    n.ident? = some name ↔ n.shape = .ident name := by
  cases h : n.shape <;> simp [ident?, h]

def name (n : Node) : String := n.ident?.getD ""

def isNamed (n : Node) (name : String) : Bool := n.ident? = some name

def stmts (n : Node) : List Node :=
  match n.shape with
  | .block stmts _ _ => stmts
  | _ => []

end Node

mutual

def Node.weight : Node → Nat
  | .mk _ _ pieces shape => Piece.weights? pieces + shape.weight + 1

def Piece.weight : Piece → Nat
  | .text _ | .child _ => 0
  | .inline n => n.weight

def Piece.weights : List Piece → Nat
  | [] => 0
  | p :: ps => p.weight + Piece.weights ps

def Piece.weights? : Option (List Piece) → Nat
  | none => 0
  | some ps => Piece.weights ps

def Node.weights : List Node → Nat
  | [] => 0
  | n :: ns => n.weight + Node.weights ns

def Node.weight? : Option Node → Nat
  | none => 0
  | some n => n.weight

def Shape.weight : Shape → Nat
  | .ident _ | .basicLit _ | .comment _ | .importSpec _ _ | .importDecl _ | .unknown _ => 0
  | .selector x sel => x.weight + sel.weight
  | .star x | .exprStmt x => x.weight
  | .call callee args _ => callee.weight + Node.weights args
  | .field names type => Node.weights names + type.weight
  | .funcType params => Node.weights params
  | .funcLit _ type body => type.weight + body.weight
  | .rawExpr nodes | .rawStmt nodes | .genDecl nodes => Node.weights nodes
  | .block stmts _ _ => Node.weights stmts
  | .assign lhs _ rhs => Node.weights lhs + Node.weights rhs
  | .varStmt names type values => Node.weights names + Node.weight? type + Node.weights values
  | .rangeStmt key value _ x body =>
    Node.weight? key + Node.weight? value + x.weight + body.weight
  | .caseClause header body => header.weight + Node.weights body
  | .labeled label stmt => label.weight + Node.weight? stmt
  | .typeSpec name _ type => name.weight + type.weight
  | .typeDecl specs => Node.weights specs
  | .funcDecl _ type _ _ body => type.weight + Node.weight? body
  | .file _ _ _ decls => Node.weights decls

end

namespace Node

@[simp] theorem weights_append (xs ys : List Node) : weights (xs ++ ys) = weights xs + weights ys := by
  induction xs with
  | nil => simp [weights]
  | cons n ns ih => simp [weights, ih, Nat.add_assoc]

@[simp] theorem weights_toList (o : Option Node) : weights o.toList = weight? o := by
  cases o <;> simp [weights, weight?]

theorem weight_le_of_mem {n : Node} {ns : List Node} (h : n ∈ ns) : n.weight ≤ weights ns := by
  induction ns with
  | nil => simp at h
  | cons m ms ih =>
    rw [weights]
    rcases List.mem_cons.1 h with rfl | h
    · omega
    · have := ih h
      omega

end Node

theorem Shape.weight_eq (s : Shape) : s.weight = Node.weights s.children := by
  cases s <;> simp [weight, children, Node.weights, Nat.add_assoc]

namespace Node

theorem weight_pos (n : Node) : 0 < n.weight := by
  cases n
  rw [weight]
  omega

theorem weight_lt_of_mem_children {n c : Node} (h : c ∈ n.children) : c.weight < n.weight := by
  obtain ⟨span, layout, pieces, shape⟩ := n
  have := weight_le_of_mem h
  rw [children, Node.shape, ← Shape.weight_eq] at this
  rw [weight]
  omega

end Node

theorem Piece.weight_le_of_mem {p : Piece} {ps : List Piece} (h : p ∈ ps) :
    p.weight ≤ weights ps := by
  induction ps with
  | nil => simp at h
  | cons q qs ih =>
    rw [weights]
    rcases List.mem_cons.1 h with rfl | h
    · omega
    · have := ih h
      omega

end ParallelTests
