import ParallelTests.Proofs.Parse.Formed
import ParallelTests.TestFunction.Plan

namespace ParallelTests

lemma Shape.kind_mapChildren (f : Nat → Node → Node) (s : Shape) :
    (s.mapChildren f).kind = s.kind := by
  cases s <;> rfl

namespace Node

structure Alike (n m : Node) : Prop where
  span : m.span = n.span
  layout : m.layout = n.layout
  pieces : m.pieces = n.pieces
  kind : m.kind = n.kind

lemma Alike.refl (n : Node) : Alike n n :=
  ⟨rfl, rfl, rfl, rfl⟩

lemma alike_withShape (n : Node) {s : Shape} (h : s.kind = n.kind) : Alike n (n.withShape s) := by
  cases n
  exact ⟨rfl, rfl, rfl, h⟩

lemma shape_withShape (n : Node) (s : Shape) : (n.withShape s).shape = s := by
  cases n
  rfl

lemma alike_prepend (stmt n : Node) : Alike n (prepend stmt n) := by
  unfold prepend
  split
  · next h => exact alike_withShape n (by rw [kind, h]; rfl)
  · exact .refl n

lemma alike_modifyAt {f : Node → Node} (hf : ∀ m, Alike m (f m)) (a : Address) (n : Node) :
    Alike n (n.modifyAt f a) := by
  cases a with
  | nil => exact hf n
  | cons i a => exact alike_withShape n (Shape.kind_mapChildren _ _)

end Node

lemma forall_mapIdx {P : Node → Prop} {f : Nat → Node → Node} {ns : List Node} (h : ∀ n ∈ ns, P n)
    (hf : ∀ i n, P n → P (f i n)) : ∀ n ∈ ns.mapIdx f, P n := by
  intro n hn
  obtain ⟨i, hi, rfl⟩ := List.mem_mapIdx.1 hn
  exact hf i _ (h _ (List.getElem_mem hi))

lemma forall_map_toList {P : Node → Prop} {f : Node → Node} {o : Option Node}
    (h : ∀ n ∈ o.toList, P n) (hf : ∀ n, P n → P (f n)) : ∀ n ∈ (o.map f).toList, P n := by
  cases o with
  | none => simp
  | some n => exact List.forall_mem_singleton.2 (hf n (h n (by simp)))

lemma Shape.Proper.mapChildren {named : String → Prop} {f : Nat → Node → Node}
    (hf : ∀ i n, (f i n).kind = n.kind) {s : Shape} (h : s.Proper named) :
    (s.mapChildren f).Proper named := by
  cases s with
  | selector | star | exprStmt | funcLit | typeSpec => simpa [Shape.mapChildren, Proper, hf] using h
  | call | caseClause =>
    exact ⟨by simpa [hf] using h.1, forall_mapIdx h.2 (by simp [hf])⟩
  | field => exact ⟨forall_mapIdx h.1 (by simp [hf]), by simpa [hf] using h.2⟩
  | funcType | rawExpr | rawStmt | genDecl | block | typeDecl | file =>
    rw [Proper] at h
    exact forall_mapIdx h (by simp [hf])
  | assign =>
    obtain ⟨hl, hr⟩ := List.forall_mem_append.1 h
    exact List.forall_mem_append.2
      ⟨forall_mapIdx hl (by simp [hf]), forall_mapIdx hr (by simp [hf])⟩
  | varStmt =>
    obtain ⟨h, hv⟩ := List.forall_mem_append.1 h
    obtain ⟨hn, ht⟩ := List.forall_mem_append.1 h
    exact List.forall_mem_append.2 ⟨List.forall_mem_append.2 ⟨forall_mapIdx hn (by simp [hf]),
      forall_map_toList ht (by simp [hf])⟩, forall_mapIdx hv (by simp [hf])⟩
  | rangeStmt =>
    obtain ⟨h, hb⟩ := h
    obtain ⟨h, hx⟩ := List.forall_mem_append.1 h
    obtain ⟨hk, hv⟩ := List.forall_mem_append.1 h
    exact ⟨List.forall_mem_append.2 ⟨List.forall_mem_append.2 ⟨forall_map_toList hk (by simp [hf]),
      forall_map_toList hv (by simp [hf])⟩, by simpa [hf] using hx⟩, by simpa [hf] using hb⟩
  | labeled | funcDecl =>
    refine ⟨by simpa [hf] using h.1, fun n hn => ?_⟩
    obtain ⟨m, hm, rfl⟩ := Option.map_eq_some_iff.1 hn
    rw [hf]
    exact h.2 m hm
  | ident | basicLit | comment | importSpec | importDecl | unknown => exact h

lemma Shows.mapIdx {f : Nat → Node → Node} (hf : ∀ i n, (f i n).kind = n.kind) {ns : List Node}
    {ps : List Piece} (h : Shows ns ps) : Shows (ns.mapIdx f) ps := by
  obtain ⟨hi, k, hk, hs⟩ := h
  refine ⟨hi, k, by rw [hk, List.length_mapIdx], ?_⟩
  intro n hn
  obtain ⟨i, hi, rfl⟩ := List.mem_take_iff_getElem.1 hn
  rw [List.length_mapIdx] at hi
  rw [List.getElem_mapIdx, hf]
  exact hs _ (List.mem_take_iff_getElem.2 ⟨i, hi, rfl⟩)

lemma Shape.Proper.mono {named named' : String → Prop} (h : ∀ name, named name → named' name)
    {s : Shape} (hs : s.Proper named) : s.Proper named' := by
  cases s with
  | ident name => exact h name hs
  | _ => exact hs

namespace Shaped

variable {named : String → Prop} {n stmt : Node}

lemma mono {named' : String → Prop} (h : ∀ name, named name → named' name) (hn : Shaped named n) :
    Shaped named' n := by
  induction hn with
  | mk hp hb _ ih => exact .mk (hp.mono h) hb ih

lemma bare {shape : Shape} (hp : shape.Proper named) (hk : shape.kind.isText = false)
    (hc : ∀ c ∈ shape.children, Shaped named c) : Shaped named (.bare shape) :=
  .mk hp hk hc

lemma bare_ident {name : String} (h : named name) : Shaped named (.bare (.ident name)) :=
  bare h rfl (by simp [Shape.children])

lemma parallelCall {handle method : String} (h : named handle) (hm : named method) :
    Shaped named (.parallelCall handle method) := by
  refine bare rfl rfl (List.forall_mem_singleton.2 ?_)
  refine bare ⟨rfl, by simp⟩ rfl (List.forall_mem_singleton.2 ?_)
  refine bare ⟨rfl, rfl⟩ rfl (List.forall_mem_cons.2 ⟨bare_ident h, ?_⟩)
  exact List.forall_mem_singleton.2 (bare_ident hm)

lemma rebinding {name : String} (h : named name) : Shaped named (.rebinding name) := by
  refine bare ?_ rfl ?_
  · exact List.forall_mem_cons.2 ⟨rfl, List.forall_mem_singleton.2 rfl⟩
  · exact List.forall_mem_cons.2 ⟨bare_ident h, List.forall_mem_singleton.2 (bare_ident h)⟩

lemma prepend (h : Shaped named n) (hs : Shaped named stmt) (hk : stmt.kind.isStmt = true) :
    Shaped named (Node.prepend stmt n) := by
  unfold Node.prepend
  split
  · next stmts oneLine lead hn =>
    have hp := h.proper
    have hb := h.backed
    rw [hn] at hp
    refine .mk ?_ ?_ ?_
    · rw [Node.shape_withShape]
      exact List.forall_mem_cons.2 ⟨hk, hp⟩
    · have hkind : n.kind = .block := by rw [Node.kind, hn]; rfl
      obtain ⟨span, layout, pieces, shape⟩ := n
      cases pieces with
      | none => rfl
      | some ps => exact absurd hkind (Kind.ne_block_of_isWoven hb.1)
    · rw [Node.children, Node.shape_withShape]
      refine List.forall_mem_cons.2 ⟨hs, fun c hc => h.child ?_⟩
      rwa [Node.children, hn]
  · exact h

lemma modifyAt {f : Node → Node} (hf : ∀ m : Node, m.Alike (f m))
    (hs : ∀ m, Shaped named m → Shaped named (f m)) (h : Shaped named n) (a : Address) :
    Shaped named (n.modifyAt f a) := by
  induction a generalizing n with
  | nil => exact hs n h
  | cons i a ih =>
    have hk (j : Nat) (c : Node) : (if j = i then c.modifyAt f a else c).kind = c.kind := by
      split
      · exact (Node.alike_modifyAt hf a c).kind
      · rfl
    have halike := Node.alike_modifyAt hf (i :: a) n
    have hb := h.backed
    refine .mk ?_ ?_ ?_
    · rw [Node.modifyAt, Node.mapChildren, Node.shape_withShape]
      exact h.proper.mapChildren hk
    · unfold Node.Backed at hb ⊢
      rw [halike.pieces, halike.kind, Node.modifyAt, Node.children_mapChildren]
      cases hp : n.pieces with
      | none => simpa [hp] using hb
      | some ps => exact ⟨(hp ▸ hb).1, (hp ▸ hb).2.mapIdx hk⟩
    · rw [Node.modifyAt, Node.children_mapChildren]
      intro c hc
      obtain ⟨j, hj, rfl⟩ := List.mem_mapIdx.1 hc
      have hchild := h.child (List.getElem_mem hj)
      split
      · exact ih hchild
      · exact hchild

end Shaped

end ParallelTests
