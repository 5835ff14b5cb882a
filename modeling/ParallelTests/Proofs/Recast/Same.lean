import ParallelTests.Proofs.Recast.Lost
import ParallelTests.Proofs.Semicolon.Outline

/-!
Trees of the same shape: of the same kinds of nodes with the same names, literals, operators and
comments, nested in the same way. Places, verbatim text, indentation and blank lines do not count, and
neither does whether a block is on one line.
-/

namespace ParallelTests

def Shape.form (s : Shape) : Shape :=
  match s.label with
  | block stmts _ lead => block stmts false lead
  | other => other

/-- Trees of the same shape, with the same comments behind their statements. -/
inductive SameShape : Node → Node → Prop
  | mk {n m : Node} (form : m.shape.form = n.shape.form)
      (trailing : m.layout.trailing = n.layout.trailing)
      (children : List.Forall₂ SameShape n.children m.children) : SameShape n m

def Node.Copied (lost : Nat → Prop) (n m : Node) : Prop := n.Keeps lost → SameShape n m

def Node.Spared (lost : Nat → Prop) (n m : Node) : Prop := (∀ x, ¬lost x) → SameShape n m

variable {lost : Nat → Prop} {n m : Node} {p q : Placed} {ns ms : List Node} {ps qs : List Placed}

lemma SameShape.trailing_eq (h : SameShape n m) : m.layout.trailing = n.layout.trailing := by
  cases h with
  | mk _ ht _ => exact ht

lemma SameShape.relaid (h : SameShape n m) {n' m' : Node} (hn : n'.shape = n.shape)
    (hm : m'.shape = m.shape) (ht : m'.layout.trailing = n'.layout.trailing) : SameShape n' m' := by
  cases h with
  | mk hf _ hc =>
    refine .mk (by rw [hn, hm, hf]) ht ?_
    rwa [Node.children, Node.children, hn, hm]

lemma Node.Copied.spared (h : n.Copied lost m) : n.Spared lost m := fun hl => by
  obtain rfl : lost = fun _ => False := funext fun x => eq_false (hl x)
  exact h (.of_none n)

lemma spared_of_children (hf : m.shape.form = n.shape.form)
    (ht : m.layout.trailing = n.layout.trailing)
    (hc : List.Forall₂ (Node.Spared lost) n.children m.children) : n.Spared lost m :=
  fun hl => .mk hf ht (hc.imp fun _ _ h => h hl)

lemma copied_of_children (hk : n.kind ≠ .labeled) (hn : n.isShown = true)
    (hf : m.shape.form = n.shape.form) (ht : m.layout.trailing = n.layout.trailing)
    (hc : List.Forall₂ (Node.Copied lost) n.children m.children) : n.Copied lost m := by
  intro hkeeps
  refine .mk hf ht ?_
  have hchildren := hkeeps.children hn hk
  generalize n.children = ns at hc hchildren
  generalize m.children = ms at hc
  induction hc with
  | nil => exact .nil
  | cons h _ ih =>
    obtain ⟨hn, hns⟩ := List.forall_mem_cons.1 hchildren
    exact .cons (h hn) (ih hns)

abbrev CopiedAll (lost : Nat → Prop) : List Placed → List Placed → Prop :=
  List.Forall₂ fun p q => p.node.Copied lost q.node

namespace CopiedAll

lemma nodes (h : CopiedAll lost ps qs) :
    List.Forall₂ (Node.Copied lost) (ps.map Placed.node) (qs.map Placed.node) :=
  List.forall₂_map_left_iff.2 (List.forall₂_map_right_iff.2 h)

lemma length_nodes (h : CopiedAll lost ps qs) : (qs.map Placed.node).length = (ps.map Placed.node).length := by
  rw [List.length_map, List.length_map, h.length_eq]

end CopiedAll

/-! ### Forms -/

lemma mapIdx_const {α β : Type} (l : List α) (b : β) :
    l.mapIdx (fun _ _ => b) = List.replicate l.length b := by
  rw [List.mapIdx_eq_zipIdx_map]
  simp

section

variable {a b c d : Node} {as bs cs ds : List Node}

lemma form_call {ellipsis : Bool} (h : bs.length = as.length) :
    (Shape.call b bs ellipsis).form = (Shape.call a as ellipsis).form := by
  simp [Shape.form, Shape.label, Shape.mapChildren, mapIdx_const, h]

lemma form_rawExpr (h : bs.length = as.length) : (Shape.rawExpr bs).form = (Shape.rawExpr as).form := by
  simp [Shape.form, Shape.label, Shape.mapChildren, mapIdx_const, h]

lemma form_field (h : bs.length = as.length) : (Shape.field bs b).form = (Shape.field as a).form := by
  simp [Shape.form, Shape.label, Shape.mapChildren, mapIdx_const, h]

lemma form_funcType (h : bs.length = as.length) :
    (Shape.funcType bs).form = (Shape.funcType as).form := by
  simp [Shape.form, Shape.label, Shape.mapChildren, mapIdx_const, h]

lemma form_funcLit {signature signature' : String} :
    (Shape.funcLit signature' c d).form = (Shape.funcLit signature a b).form := rfl

lemma form_caseClause (h : bs.length = as.length) :
    (Shape.caseClause b bs).form = (Shape.caseClause a as).form := by
  simp [Shape.form, Shape.label, Shape.mapChildren, mapIdx_const, h]

lemma form_rawStmt (h : bs.length = as.length) : (Shape.rawStmt bs).form = (Shape.rawStmt as).form := by
  simp [Shape.form, Shape.label, Shape.mapChildren, mapIdx_const, h]

lemma form_assign {op : String} (h : bs.length = as.length) (h' : ds.length = cs.length) :
    (Shape.assign bs op ds).form = (Shape.assign as op cs).form := by
  simp [Shape.form, Shape.label, Shape.mapChildren, mapIdx_const, h, h']

lemma form_varStmt {v w : Option Node} (h : bs.length = as.length) (hv : w.isSome = v.isSome)
    (h' : ds.length = cs.length) : (Shape.varStmt bs w ds).form = (Shape.varStmt as v cs).form := by
  cases v <;> cases w <;>
    simp_all [Shape.form, Shape.label, Shape.mapChildren, mapIdx_const]

lemma form_genDecl (h : bs.length = as.length) : (Shape.genDecl bs).form = (Shape.genDecl as).form := by
  simp [Shape.form, Shape.label, Shape.mapChildren, mapIdx_const, h]

lemma form_typeDecl (h : bs.length = as.length) :
    (Shape.typeDecl bs).form = (Shape.typeDecl as).form := by
  simp [Shape.form, Shape.label, Shape.mapChildren, mapIdx_const, h]

lemma form_importDecl (h : bs.map Node.shape = as.map Node.shape) :
    (Shape.importDecl bs).form = (Shape.importDecl as).form := by
  have hbare : bs.map (fun n => Node.bare n.shape) = as.map fun n => Node.bare n.shape := by
    have hall := congrArg (List.map Node.bare) h
    rwa [List.map_map, List.map_map] at hall
  simp [Shape.form, Shape.label, Shape.mapChildren, hbare]

lemma form_block {o o' : Bool} {lead lead' : Option String} (h : bs.length = as.length)
    (hl : lead' = lead) : (Shape.block bs o' lead').form = (Shape.block as o lead).form := by
  simp [Shape.form, Shape.label, Shape.mapChildren, mapIdx_const, h, hl]

end

end ParallelTests
