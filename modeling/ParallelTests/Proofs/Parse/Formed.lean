import ParallelTests.Proofs.Layout.Insert

namespace ParallelTests

namespace Kind

def isExpr : Kind → Bool
  | ident | basicLit | selector | star | call | funcLit | rawExpr => true
  | _ => false

def isStmt : Kind → Bool
  | block | exprStmt | assign | varStmt | rangeStmt | caseClause | labeled | rawStmt | comment => true
  | _ => false

def isDecl : Kind → Bool
  | importDecl | typeDecl | genDecl | funcDecl => true
  | _ => false

def isText : Kind → Bool
  | rawExpr | rawStmt | importDecl | typeDecl | genDecl | funcDecl | file => true
  | _ => false

def isSilent : Kind → Bool
  | funcType | typeSpec => true
  | _ => false

def isWoven : Kind → Bool
  | block | funcType | typeSpec => false
  | _ => true

lemma ne_block_of_isWoven {k : Kind} (h : k.isWoven = true) : k ≠ .block := by
  rintro rfl
  simp [isWoven] at h

end Kind

def Shape.Proper (named : String → Prop) : Shape → Prop
  | .ident name => named name
  | .basicLit _ | .comment _ | .importSpec _ _ | .importDecl _ => True
  | .unknown _ => False
  | .selector x sel => x.kind.isExpr = true ∧ sel.kind = .ident
  | .star x | .exprStmt x => x.kind.isExpr = true
  | .call callee args _ => callee.kind.isExpr = true ∧ ∀ n ∈ args, n.kind.isExpr = true
  | .field names type => (∀ n ∈ names, n.kind = .ident) ∧ type.kind.isExpr = true
  | .funcType params => ∀ n ∈ params, n.kind = .field
  | .funcLit _ type body => type.kind = .funcType ∧ body.kind = .block
  | .rawExpr nodes | .genDecl nodes => ∀ n ∈ nodes, n.kind = .funcLit
  | .rawStmt nodes => ∀ n ∈ nodes, n.kind = .funcLit ∨ n.kind = .block ∨ n.kind = .rawStmt
  | .block stmts _ _ => ∀ n ∈ stmts, n.kind.isStmt = true
  | .assign lhs _ rhs => ∀ n ∈ lhs ++ rhs, n.kind.isExpr = true
  | .varStmt names type values => ∀ n ∈ names ++ type.toList ++ values, n.kind.isExpr = true
  | .rangeStmt key value _ x body =>
    (∀ n ∈ key.toList ++ value.toList ++ [x], n.kind.isExpr = true) ∧ body.kind = .block
  | .caseClause header body => header.kind = .rawExpr ∧ ∀ n ∈ body, n.kind.isStmt = true
  | .labeled label stmt => label.kind = .ident ∧ ∀ n ∈ stmt, n.kind.isStmt = true
  | .typeSpec name _ type => name.kind = .ident ∧ type.kind.isExpr = true
  | .typeDecl specs => ∀ n ∈ specs, n.kind = .typeSpec
  | .funcDecl _ type _ _ body => type.kind = .funcType ∧ ∀ n ∈ body, n.kind = .block
  | .file _ _ _ decls => ∀ n ∈ decls, n.kind.isDecl = true

def Piece.child? : Piece → Option Nat
  | child i => some i
  | _ => none

def Shows (ns : List Node) (ps : List Piece) : Prop :=
  (∀ m, .inline m ∉ ps) ∧ ∃ k, ps.filterMap Piece.child? = List.range' k (ns.length - k) ∧
    ∀ n ∈ ns.take k, n.kind.isSilent = true

def Node.Backed (n : Node) : Prop :=
  match n.pieces with
  | none => n.kind.isText = false
  | some ps => n.kind.isWoven = true ∧ Shows n.children ps

inductive Shaped (named : String → Prop) : Node → Prop
  | mk {n : Node} (h : n.shape.Proper named) (hb : n.Backed) (hc : ∀ c ∈ n.children, Shaped named c) :
      Shaped named n

abbrev Formed : Node → Prop := Shaped IsIdentifier

lemma Node.of_at? {P : Node → Prop} (hP : ∀ n, P n → ∀ c ∈ n.children, P c) {n m : Node}
    {a : Address} (h : P n) (hm : n.at? a = some m) : P m := by
  induction a generalizing n with
  | nil => exact Option.some.inj hm ▸ h
  | cons i a ih =>
    obtain ⟨c, hc, hm⟩ := Option.bind_eq_some_iff.1 hm
    exact ih (hP n h c (List.mem_of_getElem? hc)) hm

lemma Shows.text {ns : List Node} {text : String} (h : ∀ n ∈ ns, n.kind.isSilent = true) :
    Shows ns [.text text] :=
  ⟨by simp, ns.length, by simp [Piece.child?], by simpa using h⟩

lemma Shows.append_text {ns : List Node} {ps : List Piece} {text : String} (h : Shows ns ps) :
    Shows ns (ps ++ [.text text]) := by
  obtain ⟨hi, k, hk, hs⟩ := h
  exact ⟨by simpa using hi, k, by simp [hk, Piece.child?], hs⟩

namespace Shaped

variable {named : String → Prop} {n m : Node}

lemma proper (h : Shaped named n) : n.shape.Proper named := by
  cases h with
  | mk h _ _ => exact h

lemma backed (h : Shaped named n) : n.Backed := by
  cases h with
  | mk _ h _ => exact h

lemma child (h : Shaped named n) {c : Node} (hc : c ∈ n.children) : Shaped named c := by
  cases h with
  | mk _ _ h => exact h c hc

lemma of_shape (h : Shaped named n) (hs : m.shape = n.shape) (hp : m.pieces = n.pieces) :
    Shaped named m := by
  refine .mk (hs ▸ h.proper) ?_ fun c hc => h.child (by rwa [Node.children, ← hs])
  have hb := h.backed
  unfold Node.Backed Node.children Node.kind at *
  rwa [hs, hp]

lemma at? {a : Address} (h : Shaped named n) (hm : n.at? a = some m) : Shaped named m :=
  Node.of_at? (fun _ h _ hc => h.child hc) h hm

end Shaped

end ParallelTests
