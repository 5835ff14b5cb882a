import ParallelTests.Proofs.Edit.Inside
import ParallelTests.Proofs.Edit.Put
import ParallelTests.Proofs.Parse.Row

namespace ParallelTests

open Scan

def behind (ins : List (Nat × Insert)) (o : Nat) : List Lexeme :=
  (ins.filter (·.1 = o)).flatMap (·.2.lexemes)

lemma behind_cons (o : Nat) (i : Insert) (ins : List (Nat × Insert)) :
    behind ((o, i) :: ins) = put o i (behind ins) := by
  funext p
  by_cases h : o = p
  · subst h
    simp [behind, put]
  · rw [put_of_ne (Ne.symm h), behind, List.filter_cons_of_neg (by simpa using h), behind]

lemma behind_append (ins ins' : List (Nat × Insert)) (o : Nat) :
    behind (ins ++ ins') o = behind ins o ++ behind ins' o := by
  rw [behind, List.filter_append, List.flatMap_append, behind, behind]

lemma behind_eq_nil {ins : List (Nat × Insert)} {o : Nat} (h : ∀ p ∈ ins, p.1 ≠ o) :
    behind ins o = [] := by
  rw [behind, List.filter_eq_nil_iff.2 (by simpa using h), List.flatMap_nil]

inductive Gains (c : Config) (decl : Node) : Status → List (Nat × Insert) → Prop
  | ignored : Gains c decl .ignored []
  | aborted : Gains c decl .aborted []
  | simple {body : Node} {handle : String} {o : Nat} (hb : decl.body? = some body)
      (hh : decl.handleName = some handle) (ho : body.span.map Span.start = some o) :
      Gains c decl .simpleParallelized [(o, .call handle c.parallelMethod)]
  | subtest {body : Node} {handle inner : String} {rel : Address} {o : Nat}
      (hb : decl.body? = some body) (hh : decl.handleName = some handle)
      (s : SubtestAt c.runMethod handle body rel inner) (ho : s.block.span.map Span.start = some o) :
      Gains c decl .subtestParallelized [(o, .call inner c.parallelMethod)]
  | table {body loop block : Node} {handle inner : String} {rel rest : Address} {k o o' : Nat}
      (hb : decl.body? = some body) (hh : decl.handleName = some handle)
      (s : SubtestAt c.runMethod handle body rel inner) (ho : s.block.span.map Span.start = some o)
      (hloop : body.stmts[k]? = some loop) (hrel : rel = k :: (loop.children.length - 1) :: rest)
      (hblock : loop.tableLoopBody? c.tableVar = some block)
      (hcase : loop.caseVar?.any (·.isNamed c.caseVar) = true)
      (ho' : block.span.map Span.start = some o') :
      Gains c decl .tableFixed [(o', .rebind c.caseVar), (o, .call inner c.parallelMethod)]

namespace Node

variable {named : String → Prop} {decl body : Node}

lemma kind_of_body? (h : Shaped named decl) (hb : decl.body? = some body) : body.kind = .block := by
  have hp := h.proper
  obtain ⟨_, _, _, shape⟩ := decl
  cases shape with
  | funcDecl => exact hp.2 body hb
  | _ => cases hb

lemma leads_of_body? (h : Shaped named decl) (hb : decl.body? = some body) :
    Leads decl [1] body := by
  refine .single ((at?_singleton decl 1).symm.trans (at?_of_body? hb)) ?_
  rw [kind_of_body? h hb]
  rfl

lemma isIdentifier_of_handleName {name : String} (h : Formed decl) (hn : decl.handleName = some name) :
    IsIdentifier name := by
  obtain ⟨field, hf, hname⟩ := Option.bind_eq_some_iff.1 hn
  obtain ⟨_, _, _, shape⟩ := decl
  cases shape with
  | funcDecl _ type _ _ _ =>
    have htype : Formed type := h.child (by simp [children, Node.shape, Shape.children])
    exact isIdentifier_of_usableName htype hf hname
  | _ => cases hf

end Node

namespace SubtestAt

variable {method handle inner : String} {body : Node} {rel : Address}

lemma call_at (s : SubtestAt method handle body rel inner) : s.stmt.children[0]? = some s.call := by
  rw [Node.children, s.stmt_shape]
  rfl

lemma closure_at (s : SubtestAt method handle body rel inner) :
    s.call.children[2]? = some s.closure := by
  rw [Node.children, s.call_shape]
  rfl

lemma closure_formed {named : String → Prop} (s : SubtestAt method handle body rel inner)
    (h : Shaped named body) : Shaped named s.closure := by
  have hstmt := h.at? s.clear.at?
  have hcall := hstmt.child (List.mem_of_getElem? s.call_at)
  exact hcall.child (List.mem_of_getElem? s.closure_at)

lemma leads {named : String → Prop} (s : SubtestAt method handle body rel inner)
    (h : Shaped named body) (hk : body.kind = .block) (hp : body.PlainParams) :
    Leads body (rel ++ [0, 2, 1]) s.block ∧ s.block.kind = .block := by
  have hstmt : Leads body rel s.stmt := by
    refine Node.leads_of_at? h (by rw [hk]; rfl) hp s.clear.at? ?_
    rw [Node.kind, s.stmt_shape]
    rfl
  have hblock : s.closure.children[1]? = some s.block := by
    rw [Node.children, s.closure_shape]
    rfl
  have hproper := (s.closure_formed h).proper
  rw [s.closure_shape] at hproper
  refine ⟨hstmt.trans (.step s.call_at ?_ (.step s.closure_at ?_ (.single hblock ?_))), hproper.2⟩
  · rw [Node.kind, s.call_shape]
    rfl
  · rw [Node.kind, s.closure_shape]
    rfl
  · rw [hproper.2]
    rfl

lemma isIdentifier (s : SubtestAt method handle body rel inner) (h : Formed body) :
    IsIdentifier inner := by
  obtain ⟨field, hf, hname⟩ := Option.bind_eq_some_iff.1 s.named
  refine Node.isIdentifier_of_usableName ((s.closure_formed h).child ?_) hf hname
  rw [Node.children, s.closure_shape]
  exact List.mem_cons_self ..

end SubtestAt

structure Filled (src : List Char) (ins : List (Nat × Insert)) (part : Part) (a b : Nat) : Prop where
  laid : Laid src (behind ins) part a b
  within : ∀ p ∈ ins, a ≤ p.1 ∧ p.1 < b
  braces : ∀ p ∈ ins, Brace src p.1
  nodup : (ins.map Prod.fst).Nodup

namespace Filled

variable {src : List Char} {ins : List (Nat × Insert)} {n block : Node} {a b : Nat} {address : Address}
  {i : Insert}

lemma empty {part : Part} (h : Lies src part a b) : Filled src [] part a b :=
  ⟨h, by simp, by simp, by simp⟩

lemma put (h : Filled src ins (.node n) a b) (hf : Formed n) (hl : Leads n address block)
    (hkind : block.kind = .block) (hv : i.Valid) :
    ∃ o, block.span.map Span.start = some o ∧ ((∀ p ∈ ins, p.1 ≠ o) →
      Filled src ((o, i) :: ins) (.node (n.modifyAt (.prepend i.node) address)) a b) := by
  obtain ⟨o, hspan, hbrace, ha, hb, hlaid⟩ := h.laid.put hf hl hkind hv
  refine ⟨o, hspan, fun hne => ⟨by rwa [behind_cons], ?_, ?_, ?_⟩⟩
  · exact List.forall_mem_cons.2 ⟨⟨ha, hb⟩, h.within⟩
  · exact List.forall_mem_cons.2 ⟨hbrace, h.braces⟩
  · rw [List.map_cons, List.nodup_cons]
    refine ⟨fun ho => ?_, h.nodup⟩
    obtain ⟨p, hp, he⟩ := List.mem_map.1 ho
    exact hne p hp he

end Filled

namespace Node

lemma modifyAt_append (f : Node → Node) (p q : Address) (n : Node) :
    n.modifyAt f (p ++ q) = n.modifyAt (modifyAt f q) p := by
  induction p generalizing n with
  | nil => rfl
  | cons i p ih =>
    rw [List.cons_append, modifyAt, modifyAt]
    simp only [ih]

end Node

lemma Leads.above {f : Node → Node} (hf : ∀ m : Node, m.Alike (f m)) {n m : Node} {p : Address}
    (h : Leads n p m) (q : Address) : Leads (n.modifyAt f (p ++ q)) p (m.modifyAt f q) := by
  rw [Node.modifyAt_append]
  exact h.modifyAt (Node.alike_modifyAt hf q)

lemma Insert.shaped {i : Insert} (h : i.Valid) : Formed i.node := by
  cases i with
  | call => exact .parallelCall h.1 h.2
  | rebind => exact .rebinding h

lemma Shaped.put {n : Node} {i : Insert} (h : Formed n) (hv : i.Valid) (address : Address) :
    Formed (n.modifyAt (.prepend i.node) address) := by
  refine h.modifyAt (Node.alike_prepend _) (fun m hm => hm.prepend (i.shaped hv) ?_) address
  cases i <;> rfl

namespace Edit

variable {c : Config} {types : TypeTable} {place : Place} {decl state : Node} {status : Status}
  {src : List Char} {a b : Nat}

lemma filled_subtest {stmt : Address} {inner : String}
    (h : Plan.of c decl decl.handleName = .ok (.subtest stmt inner))
    (hl : Lies src (.node decl) a b) (hf : Formed decl) (hp : decl.PlainParams)
    (hm : IsIdentifier c.parallelMethod) :
    ∃ body handle rel, ∃ s : SubtestAt c.runMethod handle body rel inner, ∃ o,
      decl.body? = some body ∧ decl.handleName = some handle ∧ stmt = 1 :: rel ∧
      s.block.span.map Span.start = some o ∧ s.block.kind = .block ∧
      Leads decl (stmt ++ [0, 2, 1]) s.block ∧
      Formed (Plan.apply c decl (.subtest stmt inner)) ∧
      Filled src [(o, .call inner c.parallelMethod)]
        (.node (Plan.apply c decl (.subtest stmt inner))) a b := by
  obtain ⟨body, handle, rel, hb, hh, rfl, ⟨s⟩⟩ := Plan.of_subtest h
  have hlead := Node.leads_of_body? hf hb
  have hbody := hf.at? hlead.at?
  obtain ⟨hs, hkind⟩ := s.leads hbody (Node.kind_of_body? hf hb) (hp.at? hlead.at?)
  have hvalid : (Insert.call inner c.parallelMethod).Valid := ⟨s.isIdentifier hbody, hm⟩
  have hall : Leads decl (1 :: rel ++ [0, 2, 1]) s.block := hlead.trans hs
  obtain ⟨o, ho, hput⟩ := (Filled.empty hl).put hf hall hkind hvalid
  exact ⟨body, handle, rel, s, o, hb, hh, rfl, ho, hkind, hall, hf.put hvalid _, hput (by simp)⟩

lemma leads_loop {body loop block : Node} {k : Nat} {name : String} (hf : Formed decl)
    (hb : decl.body? = some body) (hloop : body.stmts[k]? = some loop)
    (hblock : loop.tableLoopBody? name = some block) :
    Leads decl [1, k, loop.children.length - 1] block ∧ block.kind = .block := by
  have hproper := (hf.at? (Node.at?_stmt hb hloop)).proper
  have hk : loop.kind = .rangeStmt ∧ block.kind = .block := by
    obtain ⟨_, _, _, shape⟩ := loop
    cases shape with
    | rangeStmt key value tok x body =>
      simp only [Node.tableLoopBody?, Node.shape, Option.ite_none_right_eq_some] at hblock
      obtain rfl := Option.some.inj hblock.2
      exact ⟨rfl, hproper.2⟩
    | _ => cases hblock
  have hi := (Node.at?_singleton _ _).symm.trans (Node.at?_of_stmts hloop)
  have hi' := (Node.at?_singleton _ _).symm.trans (Node.at?_of_tableLoopBody? hblock)
  refine ⟨(Node.leads_of_body? hf hb).trans (.step hi ?_ (.single hi' ?_)), hk.2⟩
  · rw [hk.1]
    rfl
  · rw [hk.2]
    rfl

theorem Did.gains (hd : Did c types place decl state (.ok status)) (hl : Lies src (.node decl) a b)
    (hf : Formed decl) (hp : decl.PlainParams) (hm : IsIdentifier c.parallelMethod)
    (hv : IsIdentifier c.caseVar) : ∃ ins, Gains c decl status ins ∧ Filled src ins (.node state) a b := by
  have hfilled := Filled.empty hl
  cases hd with
  | ignored => exact ⟨[], .ignored, hfilled⟩
  | aborted => exact ⟨[], .aborted, hfilled⟩
  | @simple handle _ hplan =>
    obtain ⟨body, hb, hh, -⟩ := Plan.of_simple hplan
    have hvalid : (Insert.call handle c.parallelMethod).Valid :=
      ⟨Node.isIdentifier_of_handleName hf hh, hm⟩
    obtain ⟨o, ho, hput⟩ := hfilled.put hf (Node.leads_of_body? hf hb) (Node.kind_of_body? hf hb)
      hvalid
    exact ⟨_, .simple hb hh ho, hput (by simp)⟩
  | @subtest stmt inner r _ hplan _ _ =>
    obtain ⟨body, handle, rel, s, o, hb, hh, rfl, ho, -, -, -, hput⟩ :=
      filled_subtest hplan hl hf hp hm
    exact ⟨_, .subtest hb hh s ho, hput⟩
  | @rebound stmt loc inner _ hplan hr =>
    obtain ⟨body, handle, rel, s, o, hb, hh, hstmt, ho, hkind, hlead, hformed, hput⟩ :=
      filled_subtest hplan hl hf hp hm
    obtain ⟨body', k, loop, block, rest, hb', hloop, rfl, rfl, hblock, hcase⟩ :=
      Repair.of_rebind_apply hr
    obtain rfl := Option.some.inj (hb.symm.trans hb')
    obtain ⟨hto, hk⟩ := leads_loop hf hb hloop hblock
    rw [List.append_assoc] at hlead
    have hbelow := hlead.tail hto
    have habove := hto.above (Node.alike_prepend (.parallelCall inner c.parallelMethod))
      (rest ++ [0, 2, 1])
    have halike := Node.alike_modifyAt (Node.alike_prepend (.parallelCall inner c.parallelMethod))
      (rest ++ [0, 2, 1]) block
    rw [← List.append_assoc] at habove
    obtain ⟨o', ho', hput'⟩ := hput.put hformed habove (halike.kind.trans hk)
      (i := .rebind c.caseVar) hv
    rw [halike.span] at ho'
    obtain ⟨j, way, hway⟩ : ∃ j way, rest ++ [0, 2, 1] = j :: way := by
      cases rest <;> exact ⟨_, _, rfl⟩
    rw [hway] at hbelow
    have hlt := hl.opening_lt hf hto hk hbelow hkind ho' ho
    have hrel : rel = k :: (loop.children.length - 1) :: rest := (List.cons.inj hstmt).2.symm
    exact ⟨_, .table hb hh s ho hloop hrel hblock hcase ho', hput' (by simpa using Nat.ne_of_gt hlt)⟩

end Edit

end ParallelTests
