import ParallelTests.Proofs.Edit.Leads
import ParallelTests.Proofs.Edit.Pruned
import ParallelTests.Proofs.Edit.Search
import ParallelTests.TestFunction.Edit

namespace ParallelTests

namespace Node

lemma at?_modifyAt_append (f : Node → Node) (p q : Address) (n : Node) :
    (n.modifyAt f (p ++ q)).at? p = (n.at? p).map (modifyAt f q) := by
  induction p generalizing n with
  | nil => rfl
  | cons i p ih =>
    rw [List.cons_append, at?_cons, at?_cons, children_modifyAt, List.getElem?_modify_eq]
    cases n.children[i]? with
    | none => rfl
    | some c => exact ih c

lemma at?_singleton (n : Node) (i : Nat) : n.at? [i] = n.children[i]? := by
  rw [at?_cons]
  cases n.children[i]? <;> rfl

lemma at?_of_body? {decl body : Node} (h : decl.body? = some body) : decl.at? [1] = some body := by
  obtain ⟨span, layout, pieces, shape⟩ := decl
  cases shape with
  | funcDecl name type signature recv b =>
    obtain rfl : b = some body := h
    rfl
  | _ => cases h

lemma body?_modifyAt (f : Node → Node) (a : Address) (decl : Node) :
    (decl.modifyAt f (1 :: a)).body? = decl.body?.map (modifyAt f a) := by
  obtain ⟨span, layout, pieces, shape⟩ := decl
  cases shape <;> rfl

lemma stmts_modifyAt (f : Node → Node) (i : Nat) (a : Address) (n : Node) :
    (n.modifyAt f (i :: a)).stmts = n.stmts.modify i (modifyAt f a) := by
  obtain ⟨span, layout, pieces, shape⟩ := n
  cases shape with
  | block stmts oneLine lead => exact mapIdx_eq_modify _ i stmts
  | _ => simp [stmts, modifyAt, mapChildren, withShape, shape, Shape.mapChildren]

lemma at?_of_stmts {n c : Node} {k : Nat} (h : n.stmts[k]? = some c) : n.at? [k] = some c := by
  obtain ⟨span, layout, pieces, shape⟩ := n
  cases shape with
  | block stmts oneLine lead =>
    have hk : stmts[k]? = some c := h
    simp [at?, children, Node.shape, Shape.children, hk]
  | _ => cases h

lemma at?_stmt {decl body stmt : Node} {k : Nat} (hb : decl.body? = some body)
    (hk : body.stmts[k]? = some stmt) : decl.at? [1, k] = some stmt := by
  have h := at?_append decl [1] [k]
  rwa [at?_of_body? hb, Option.bind_some, at?_of_stmts hk] at h

lemma kind_of_subtestCall? {handle method : String} {stmt call : Node}
    (h : stmt.subtestCall? handle method = some call) :
    stmt.shape = .exprStmt call ∧ ∃ callee args ellipsis x sel, call.shape = .call callee args ellipsis ∧
      callee.shape = .selector x sel ∧ x.ident? = some handle ∧ sel.ident? = some method := by
  unfold subtestCall? at h
  split at h
  · next hs =>
    split at h
    · next hc =>
      split at h
      · next hx =>
        split at h
        · next hn =>
          obtain rfl := Option.some.inj h
          rw [Bool.and_eq_true, isNamed, isNamed, decide_eq_true_eq, decide_eq_true_eq] at hn
          exact ⟨hs, _, _, _, _, _, hc, hx, hn⟩
        · cases h
      · cases h
    · cases h
  · cases h

end Node

structure SubtestAt (method handle : String) (body : Node) (rel : Address) (inner : String) where
  (stmt call callee x sel name closure type block : Node)
  signature : String
  clear : Node.Clear handle body rel stmt
  stmt_shape : stmt.shape = .exprStmt call
  call_shape : call.shape = .call callee [name, closure] false
  callee_shape : callee.shape = .selector x sel
  receiver : x.ident? = some handle
  selected : sel.ident? = some method
  closure_shape : closure.shape = .funcLit signature type block
  single : type.paramCount = 1
  named : type.params.head?.bind (Node.usableName ·.names) = some inner

namespace Plan

lemma ofCall_subtest {a stmt : Address} {call : Node} {inner : String}
    (h : ofCall a call = subtest stmt inner) : a = stmt ∧ call.hasEllipsis = false ∧
      ∃ name closure, call.args = [name, closure] ∧ closure.kind = .funcLit ∧
        closure.closureHandle = some inner := by
  unfold ofCall at h
  split at h
  · cases h
  · next he =>
    split at h
    · next name closure hargs =>
      split at h
      · next hk =>
        split at h
        · next hc =>
          cases h
          exact ⟨rfl, by simpa using he, name, closure, hargs, hk, hc⟩
        · cases h
      · cases h
    · cases h

lemma ofCall_ne_simple {a : Address} {call : Node} {name : String} : ofCall a call ≠ simple name := by
  unfold ofCall
  repeat' split
  all_goals rintro ⟨⟩

lemma of_simple {c : Config} {decl : Node} {handle : Option String} {name : String}
    (h : of c decl handle = .ok (simple name)) : ∃ body, decl.body? = some body ∧
      handle = some name ∧ body.findSubtest name c.runMethod [1] = .ok none := by
  unfold of at h
  split at h
  · cases h
  · cases h
  · next body handle hb =>
    split at h
    · cases h
    · next hf =>
      obtain rfl := simple.inj (Except.ok.inj h)
      exact ⟨body, hb, rfl, hf⟩
    · next a stmt hf =>
      obtain ⟨-, -, -, hcall⟩ := Node.findSubtest_spec hf
      obtain ⟨call, hcall⟩ := Option.isSome_iff_exists.1 hcall
      rw [hcall] at h
      exact absurd (Except.ok.inj h) ofCall_ne_simple

lemma of_subtest {c : Config} {decl : Node} {handle : Option String} {stmt : Address}
    {inner : String} (h : of c decl handle = .ok (subtest stmt inner)) :
    ∃ body name rel, decl.body? = some body ∧ handle = some name ∧ stmt = 1 :: rel ∧
      Nonempty (SubtestAt c.runMethod name body rel inner) := by
  unfold of at h
  split at h
  · cases h
  · cases h
  · next body name hb =>
    split at h
    · cases h
    · cases h
    · next a node hf =>
      split at h
      · next call hcall =>
        obtain ⟨rfl, he, arg, closure, hargs, hk, hinner⟩ := ofCall_subtest (Except.ok.inj h)
        obtain ⟨rel, rfl, hclear, -⟩ := Node.findSubtest_spec hf
        obtain ⟨hshape, callee, args, ellipsis, x, sel, hc, hcallee, hx, hsel⟩ :=
          Node.kind_of_subtestCall? hcall
        obtain ⟨span, layout, pieces, shape⟩ := closure
        cases shape with
        | funcLit signature type block =>
          simp only [Node.args, Node.hasEllipsis, hc] at hargs he
          subst hargs he
          simp only [Node.closureHandle, Node.shape] at hinner
          split at hinner
          · next hcount =>
            exact ⟨body, name, rel, hb, rfl, rfl, ⟨⟨node, call, callee, x, sel, arg, _, type, block,
              signature, hclear, hshape, hc, hcallee, hx, hsel, rfl, hcount, hinner⟩⟩⟩
          · cases hinner
        | _ => cases hk
      · cases h

end Plan

namespace Repair

lemma tableLoop_spec {name : String} {subtest a : Address} {index : Nat} {stmts : List Node}
    {loop : Node} (h : tableLoop name subtest index stmts = .ok (some (a, loop))) :
    ∃ k body, stmts[k]? = some loop ∧ a = [1, index + k, loop.children.length - 1] ∧
      loop.tableLoopBody? name = some body ∧ a <+: subtest := by
  induction stmts generalizing index with
  | nil => cases h
  | cons stmt rest ih =>
    rw [tableLoop] at h
    have later (h : tableLoop name subtest (index + 1) rest = .ok (some (a, loop))) :
        ∃ k body, (stmt :: rest)[k]? = some loop ∧ a = [1, index + k, loop.children.length - 1] ∧
          loop.tableLoopBody? name = some body ∧ a <+: subtest := by
      obtain ⟨k, body, hk, ha, hbody, hp⟩ := ih h
      exact ⟨k + 1, body, hk, by rw [ha, Nat.add_right_comm, Nat.add_assoc], hbody, hp⟩
    split at h
    · exact later h
    · next body hbody =>
      obtain ⟨held, hheld, h⟩ := Except.bind_eq_ok_iff.1 h
      cases held with
      | false => exact later h
      | true =>
        obtain ⟨rel, _, -, rfl⟩ := (Node.holds_eq_ok hheld).1 rfl
        rw [if_pos rfl, Except.pure_eq_ok_iff, Option.some.injEq, Prod.mk.injEq] at h
        obtain ⟨rfl, rfl⟩ := h
        exact ⟨0, body, rfl, rfl, hbody, List.prefix_append _ _⟩

lemma of_rebind {c : Config} {decl : Node} {subtest a : Address}
    (h : of c decl subtest = .ok (rebind a)) :
    ∃ body k loop block, decl.body? = some body ∧ body.stmts[k]? = some loop ∧
      a = [1, k, loop.children.length - 1] ∧ loop.tableLoopBody? c.tableVar = some block ∧
      loop.caseVar?.any (·.isNamed c.caseVar) = true ∧ a <+: subtest := by
  unfold of at h
  dsimp only at h
  split at h
  · obtain ⟨found, hf, h⟩ := Except.bind_eq_ok_iff.1 h
    cases found with
    | none => cases h
    | some found =>
      obtain ⟨a', loop⟩ := found
      dsimp only at h
      split at h
      · next hcase =>
        obtain rfl := rebind.inj (Except.pure_eq_ok_iff.1 h)
        obtain ⟨k, block, hk, ha, hblock, hp⟩ := tableLoop_spec hf
        cases hb : decl.body? with
        | none => simp [hb] at hk
        | some body =>
          rw [hb] at hk
          exact ⟨body, k, loop, block, rfl, hk, by rwa [Nat.zero_add] at ha, hblock, hcase, hp⟩
      · cases h
  · cases h

end Repair

namespace Node

lemma tableLoopBody?_modifyAt (f : Node → Node) (a : Address) (loop : Node) (name : String) :
    (loop.modifyAt f ((loop.children.length - 1) :: a)).tableLoopBody? name =
      (loop.tableLoopBody? name).map (modifyAt f a) := by
  obtain ⟨span, layout, pieces, shape⟩ := loop
  cases shape with
  | rangeStmt key value tok x body =>
    cases key <;> cases value <;>
      simp [tableLoopBody?, modifyAt, mapChildren, withShape, Node.shape, Shape.mapChildren, children,
        Shape.children]
  | _ => rfl

lemma caseVar?_modifyAt (f : Node → Node) (a : Address) (loop : Node) :
    (loop.modifyAt f ((loop.children.length - 1) :: a)).caseVar? = loop.caseVar? := by
  obtain ⟨span, layout, pieces, shape⟩ := loop
  cases shape with
  | rangeStmt key value tok x body =>
    cases key <;> cases value <;>
      simp [caseVar?, modifyAt, mapChildren, withShape, Node.shape, Shape.mapChildren, children,
        Shape.children]
  | _ => rfl

lemma at?_of_tableLoopBody? {loop body : Node} {name : String}
    (h : loop.tableLoopBody? name = some body) :
    loop.at? [loop.children.length - 1] = some body := by
  obtain ⟨span, layout, pieces, shape⟩ := loop
  cases shape with
  | rangeStmt key value tok x b =>
    simp only [tableLoopBody?, Node.shape, Option.ite_none_right_eq_some] at h
    obtain rfl := Option.some.inj h.2
    cases key <;> cases value <;> simp [at?, children, Node.shape, Shape.children]
  | _ => cases h

end Node

lemma Repair.of_rebind_apply {c : Config} {decl : Node} {stmt a : Address} {handle : String}
    (h : Repair.of c (Plan.apply c decl (.subtest stmt handle)) stmt = .ok (.rebind a)) :
    ∃ body k loop block rest, decl.body? = some body ∧ body.stmts[k]? = some loop ∧
      a = [1, k, loop.children.length - 1] ∧ stmt = a ++ rest ∧
      loop.tableLoopBody? c.tableVar = some block ∧
      loop.caseVar?.any (·.isNamed c.caseVar) = true := by
  obtain ⟨body', k, loop', block', hbody, hk, rfl, hblock, hcase, rest, rfl⟩ := of_rebind h
  simp only [Plan.apply, Plan.target?, List.cons_append, List.nil_append] at hbody
  rw [Node.body?_modifyAt] at hbody
  obtain ⟨body, hb, rfl⟩ := Option.map_eq_some_iff.1 hbody
  rw [Node.stmts_modifyAt, List.getElem?_modify_eq] at hk
  obtain ⟨loop, hk, he⟩ := Option.map_eq_some_iff.1 hk
  have hlen : loop'.children.length = loop.children.length := by
    rw [← he, Node.children_modifyAt, List.length_modify]
  rw [hlen] at he ⊢
  rw [← he, Node.tableLoopBody?_modifyAt] at hblock
  obtain ⟨block, hblock, -⟩ := Option.map_eq_some_iff.1 hblock
  rw [← he, Node.caseVar?_modifyAt] at hcase
  exact ⟨body, k, loop, block, rest, hb, hk, rfl, rfl, hblock, hcase⟩

namespace Edit

inductive Did (c : Config) (types : TypeTable) (place : Place) (decl : Node) :
    Node → Except Breach Status → Prop
  | ignored (ht : Classification.of c types place decl ≠ .isTest) :
      Did c types place decl decl (.ok .ignored)
  | aborted {reason : Abort} (ht : Classification.of c types place decl = .isTest)
      (hp : Plan.of c decl decl.handleName = .ok (.abort reason)) :
      Did c types place decl decl (.ok .aborted)
  | simple {handle : String} (ht : Classification.of c types place decl = .isTest)
      (hp : Plan.of c decl decl.handleName = .ok (.simple handle)) :
      Did c types place decl (Plan.apply c decl (.simple handle)) (.ok .simpleParallelized)
  | subtest {stmt : Address} {handle : String} {r : Repair}
      (ht : Classification.of c types place decl = .isTest)
      (hp : Plan.of c decl decl.handleName = .ok (.subtest stmt handle))
      (hr : Repair.of c (Plan.apply c decl (.subtest stmt handle)) stmt = .ok r)
      (hf : r.isFixed = false) :
      Did c types place decl (Plan.apply c decl (.subtest stmt handle)) (.ok .subtestParallelized)
  | rebound {stmt a : Address} {handle : String}
      (ht : Classification.of c types place decl = .isTest)
      (hp : Plan.of c decl decl.handleName = .ok (.subtest stmt handle))
      (hr : Repair.of c (Plan.apply c decl (.subtest stmt handle)) stmt = .ok (.rebind a)) :
      Did c types place decl ((Plan.apply c decl (.subtest stmt handle)).modifyAt
        (.prepend (.rebinding c.caseVar)) a) (.ok .tableFixed)
  | lost {breach : Breach} (ht : Classification.of c types place decl = .isTest)
      (hp : Plan.of c decl decl.handleName = .error breach) :
      Did c types place decl decl (.error breach)
  | astray {stmt : Address} {handle : String} {breach : Breach}
      (ht : Classification.of c types place decl = .isTest)
      (hp : Plan.of c decl decl.handleName = .ok (.subtest stmt handle))
      (hr : Repair.of c (Plan.apply c decl (.subtest stmt handle)) stmt = .error breach) :
      Did c types place decl (Plan.apply c decl (.subtest stmt handle)) (.error breach)

theorem did_function (c : Config) (types : TypeTable) (place : Place) (path : String)
    (log : Log.Logger) (decl : Node) :
    Did c types place decl (function c types place path log decl).state
      ((function c types place path log decl).result.map Outcome.status) := by
  unfold function
  dsimp only
  split
  · next ht => exact .ignored ht
  · next ht =>
    rw [not_not] at ht
    unfold parallelize
    cases hp : Plan.of c decl decl.handleName with
    | error breach => exact .lost ht hp
    | ok plan =>
      cases plan with
      | abort reason => exact .aborted ht hp
      | simple handle => exact .simple ht hp
      | subtest stmt handle =>
        unfold repair
        dsimp only
        cases hr : Repair.of c (Plan.apply c decl (.subtest stmt handle)) stmt with
        | error breach => exact .astray ht hp hr
        | ok r =>
          cases r with
          | rebind a => exact .rebound ht hp hr
          | _ => exact .subtest ht hp hr rfl

end Edit

end ParallelTests
