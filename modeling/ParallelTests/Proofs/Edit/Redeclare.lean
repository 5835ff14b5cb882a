import ParallelTests.Proofs.Edit.Steps

namespace ParallelTests

namespace Node

def declared (n : Node) : List String :=
  match n.shape with
  | .assign [x] ":=" _ => x.ident?.toList
  | .varStmt names _ _ => names.filterMap ident?
  | _ => []

def list? (n : Node) : Option (List Node) :=
  match n.shape with
  | .block stmts _ _ => some stmts
  | .caseClause _ body => some body
  | _ => none

def Apart (stmts : List Node) : Prop :=
  stmts.Pairwise fun s t => ∀ x ∈ s.declared, x ∉ t.declared

instance (stmts : List Node) : Decidable (Apart stmts) :=
  inferInstanceAs (Decidable (stmts.Pairwise _))

/-- Somewhere in the tree, two statements of one list declare the same name. -/
def Redeclares (n : Node) : Prop :=
  ∃ a m stmts, n.at? a = some m ∧ m.list? = some stmts ∧ ¬Apart stmts

lemma redeclares_iff_preorder (n : Node) :
    (∃ p ∈ n.preorder [], ∃ stmts ∈ p.2.list?, ¬Apart stmts) ↔ n.Redeclares := by
  constructor
  · rintro ⟨⟨a, m⟩, hp, stmts, hm, hs⟩
    obtain ⟨rel, -, hat⟩ := mem_preorder.1 hp
    exact ⟨rel, m, stmts, hat, hm, hs⟩
  · rintro ⟨a, m, stmts, hat, hm, hs⟩
    exact ⟨(a, m), mem_preorder.2 ⟨a, rfl, hat⟩, stmts, hm, hs⟩

instance (n : Node) : Decidable n.Redeclares :=
  decidable_of_iff _ (redeclares_iff_preorder n)

lemma redeclares_iff {n : Node} :
    n.Redeclares ↔ (∃ stmts, n.list? = some stmts ∧ ¬Apart stmts) ∨
      ∃ c ∈ n.children, c.Redeclares := by
  constructor
  · rintro ⟨a, m, stmts, hat, hm, hs⟩
    cases a with
    | nil =>
      obtain rfl := Option.some.inj hat
      exact .inl ⟨stmts, hm, hs⟩
    | cons i a =>
      obtain ⟨c, hc, hat⟩ := Option.bind_eq_some_iff.1 hat
      exact .inr ⟨c, List.mem_of_getElem? hc, a, m, stmts, hat, hm, hs⟩
  · rintro (⟨stmts, hm, hs⟩ | ⟨c, hc, a, m, stmts, hat, hm, hs⟩)
    · exact ⟨[], n, stmts, rfl, hm, hs⟩
    · obtain ⟨i, hc⟩ := List.mem_iff_getElem?.1 hc
      exact ⟨i :: a, m, stmts, by rw [at?_cons, hc, Option.bind_some, hat], hm, hs⟩

lemma exists_mem_iff {P : Node → Prop} {ns : List Node} (i : Nat) : (∃ c ∈ ns, P c) ↔
    (∃ (j : Nat) (c : Node), j ≠ i ∧ ns[j]? = some c ∧ P c) ∨ ∃ c, ns[i]? = some c ∧ P c := by
  constructor
  · rintro ⟨c, hc, hp⟩
    obtain ⟨j, hj⟩ := List.mem_iff_getElem?.1 hc
    by_cases h : j = i
    · exact .inr ⟨c, h ▸ hj, hp⟩
    · exact .inl ⟨j, c, h, hj, hp⟩
  · rintro (⟨j, c, -, hj, hp⟩ | ⟨c, hi, hp⟩)
    · exact ⟨c, List.mem_of_getElem? hj, hp⟩
    · exact ⟨c, List.mem_of_getElem? hi, hp⟩

lemma exists_mem_modify {P : Node → Prop} {g : Node → Node} {ns : List Node} {i : Nat} :
    (∃ c ∈ ns.modify i g, P c) ↔
      (∃ (j : Nat) (c : Node), j ≠ i ∧ ns[j]? = some c ∧ P c) ∨
        ∃ c, ns[i]? = some c ∧ P (g c) := by
  rw [exists_mem_iff i]
  refine or_congr ?_ ?_
  · refine exists_congr fun j => exists_congr fun c => and_congr_right fun h => ?_
    simp [Ne.symm h]
  · rw [List.getElem?_modify_eq]
    cases ns[i]? <;> simp

lemma apart_congr {stmts stmts' : List Node} (h : stmts'.map declared = stmts.map declared) :
    Apart stmts' ↔ Apart stmts := by
  unfold Apart
  rw [← List.pairwise_map (f := declared) (R := fun xs ys => ∀ x ∈ xs, x ∉ ys), h, List.pairwise_map]

section Modify

variable {f : Node → Node} (hi : ∀ m, (f m).ident? = m.ident?) (hd : ∀ m, (f m).declared = m.declared)

include hi in
lemma ident?_modifyAt (a : Address) (n : Node) : (n.modifyAt f a).ident? = n.ident? := by
  cases a with
  | nil => exact hi n
  | cons i a =>
    obtain ⟨span, layout, pieces, shape⟩ := n
    cases shape <;> rfl

lemma map_mapIdx_eq {α : Type} {k : Node → α} {g : Nat → Node → Node}
    (hg : ∀ i m, k (g i m) = k m) (ns : List Node) : (ns.mapIdx g).map k = ns.map k := by
  induction ns generalizing g with
  | nil => rfl
  | cons n ns ih => rw [List.mapIdx_cons, List.map_cons, List.map_cons, hg, ih fun i m => hg _ m]

include hi hd in
lemma declared_modifyAt (a : Address) (n : Node) : (n.modifyAt f a).declared = n.declared := by
  cases a with
  | nil => exact hd n
  | cons i a =>
    have hg (j : Nat) (m : Node) : (if j = i then m.modifyAt f a else m).ident? = m.ident? := by
      split
      · exact ident?_modifyAt hi a m
      · rfl
    obtain ⟨span, layout, pieces, shape⟩ := n
    cases shape with
    | assign lhs tok rhs =>
      cases lhs with
      | nil => rfl
      | cons x lhs =>
        cases lhs with
        | nil =>
          by_cases ht : tok = ":="
          · subst ht
            exact congrArg Option.toList (hg 0 x)
          · simp [declared, modifyAt, mapChildren, withShape, shape, Shape.mapChildren, ht]
        | cons y lhs =>
          simp [declared, modifyAt, mapChildren, withShape, shape, Shape.mapChildren, List.mapIdx_cons]
    | varStmt names type values =>
      have hn := congrArg (List.filterMap id) (map_mapIdx_eq hg names)
      rwa [List.filterMap_map, List.filterMap_map] at hn
    | _ => rfl

include hi hd in
lemma list?_modifyAt (i : Nat) (a : Address) (n : Node) :
    (n.modifyAt f (i :: a)).list?.map (List.map declared) = n.list?.map (List.map declared) := by
  have hg (j : Nat) (m : Node) : (if j = i then m.modifyAt f a else m).declared = m.declared := by
    split
    · exact declared_modifyAt hi hd a m
    · rfl
  obtain ⟨span, layout, pieces, shape⟩ := n
  cases shape with
  | block stmts oneLine lead => exact congrArg some (map_mapIdx_eq hg stmts)
  | caseClause header body => exact congrArg some (map_mapIdx_eq (fun j m => hg (j + 1) m) body)
  | _ => rfl

include hi hd in
lemma lists_modifyAt (i : Nat) (a : Address) (n : Node) :
    (∃ stmts, (n.modifyAt f (i :: a)).list? = some stmts ∧ ¬Apart stmts) ↔
      ∃ stmts, n.list? = some stmts ∧ ¬Apart stmts := by
  have hl := list?_modifyAt hi hd i a n
  cases hn : n.list? with
  | none =>
    rw [hn, Option.map_none, Option.map_eq_none_iff] at hl
    simp [hl]
  | some stmts =>
    rw [hn, Option.map_some, Option.map_eq_some_iff] at hl
    obtain ⟨stmts', hs, hm⟩ := hl
    simp [hs, apart_congr hm]

end Modify

lemma ident?_prepend (s n : Node) : (prepend s n).ident? = n.ident? := by
  obtain ⟨span, layout, pieces, shape⟩ := n
  cases shape <;> rfl

lemma declared_prepend (s n : Node) : (prepend s n).declared = n.declared := by
  obtain ⟨span, layout, pieces, shape⟩ := n
  cases shape <;> rfl

lemma redeclares_prepend {s n : Node} : (prepend s n).Redeclares ↔ n.Redeclares ∨
    (n.kind = .block ∧ (s.Redeclares ∨ ∃ t ∈ n.stmts, ∃ x ∈ s.declared, x ∈ t.declared)) := by
  obtain ⟨span, layout, pieces, shape⟩ := n
  cases shape with
  | block stmts oneLine lead =>
    have hlist : ¬Apart (s :: stmts) ↔
        (∃ t ∈ stmts, ∃ x ∈ s.declared, x ∈ t.declared) ∨ ¬Apart stmts := by
      rw [Apart, List.pairwise_cons, not_and_or]
      simp [Apart]
    have hblock : (mk span layout pieces (.block stmts oneLine lead)).Redeclares ↔
        ¬Apart stmts ∨ ∃ c ∈ stmts, c.Redeclares := by
      rw [redeclares_iff]
      simp [list?, children, Node.shape, Shape.children]
    have hnew : (prepend s (mk span layout pieces (.block stmts oneLine lead))).Redeclares ↔
        ¬Apart (s :: stmts) ∨ ∃ c ∈ s :: stmts, c.Redeclares := by
      rw [redeclares_iff]
      simp [prepend, withShape, list?, children, Node.shape, Shape.children]
    rw [hnew, hblock, hlist, List.exists_mem_cons_iff]
    simp only [kind, Node.shape, Shape.kind, Node.stmts, true_and]
    grind
  | _ => simp [prepend, Node.shape, kind, Shape.kind]

theorem redeclares_modifyAt_prepend {s : Node} (a : Address) (n : Node) :
    (n.modifyAt (prepend s) a).Redeclares ↔ n.Redeclares ∨ ∃ b, n.at? a = some b ∧ b.kind = .block ∧
      (s.Redeclares ∨ ∃ t ∈ b.stmts, ∃ x ∈ s.declared, x ∈ t.declared) := by
  induction a generalizing n with
  | nil => simp [modifyAt, redeclares_prepend]
  | cons i a ih =>
    rw [redeclares_iff, lists_modifyAt (ident?_prepend s) (declared_prepend s), redeclares_iff (n := n),
      children_modifyAt, or_assoc]
    refine or_congr_right ?_
    rw [exists_mem_modify, exists_mem_iff i]
    cases hc : n.children[i]? with
    | none => simp [hc]
    | some c => simp [hc, ih, or_assoc]

lemma not_redeclares {n : Node} (hl : n.list? = none) (hc : ∀ c ∈ n.children, ¬c.Redeclares) :
    ¬n.Redeclares := by
  rw [redeclares_iff]
  simpa [hl] using hc

lemma not_redeclares_ident (name : String) : ¬(bare (.ident name)).Redeclares :=
  not_redeclares rfl (by simp [children, bare, shape, Shape.children])

lemma not_redeclares_parallelCall (handle method : String) :
    ¬(parallelCall handle method).Redeclares := by
  refine not_redeclares rfl (List.forall_mem_singleton.2 ?_)
  refine not_redeclares rfl (List.forall_mem_singleton.2 ?_)
  refine not_redeclares rfl (List.forall_mem_cons.2 ⟨not_redeclares_ident handle, ?_⟩)
  exact List.forall_mem_singleton.2 (not_redeclares_ident method)

lemma not_redeclares_rebinding (name : String) : ¬(rebinding name).Redeclares := by
  refine not_redeclares rfl (List.forall_mem_cons.2 ⟨not_redeclares_ident name, ?_⟩)
  exact List.forall_mem_singleton.2 (not_redeclares_ident name)

lemma declared_parallelCall (handle method : String) : (parallelCall handle method).declared = [] :=
  rfl

lemma declared_rebinding (name : String) : (rebinding name).declared = [name] :=
  rfl

lemma redeclares_parallelize {handle method : String} {a : Address} {n : Node} :
    (n.modifyAt (prepend (parallelCall handle method)) a).Redeclares ↔ n.Redeclares := by
  rw [redeclares_modifyAt_prepend, declared_parallelCall]
  simp [not_redeclares_parallelCall]

lemma redeclares_rebind {name : String} {a : Address} {n : Node} :
    (n.modifyAt (prepend (rebinding name)) a).Redeclares ↔ n.Redeclares ∨
      ∃ b, n.at? a = some b ∧ b.kind = .block ∧ ∃ t ∈ b.stmts, name ∈ t.declared := by
  rw [redeclares_modifyAt_prepend, declared_rebinding]
  simp [not_redeclares_rebinding]

lemma exists_declared_modifyAt {s n : Node} (hs : s.declared = []) (a : Address) (x : String) :
    (∃ t ∈ (n.modifyAt (prepend s) a).stmts, x ∈ t.declared) ↔ ∃ t ∈ n.stmts, x ∈ t.declared := by
  cases a with
  | nil =>
    obtain ⟨span, layout, pieces, shape⟩ := n
    cases shape <;> simp [modifyAt, prepend, withShape, stmts, Node.shape, hs]
  | cons i a =>
    rw [stmts_modifyAt, exists_mem_modify, exists_mem_iff i]
    simp only [declared_modifyAt (ident?_prepend s) (declared_prepend s)]

lemma kind_of_mem_declared_stmts {b : Node} {x : String} (h : ∃ t ∈ b.stmts, x ∈ t.declared) :
    b.kind = .block := by
  obtain ⟨span, layout, pieces, shape⟩ := b
  cases shape with
  | block => rfl
  | _ => simp [stmts, Node.shape] at h

end Node

namespace Edit

variable {c : Config} {types : TypeTable} {place : Place} {path : String} {log : Log.Logger}
  {decl : Node}

/-- A loop over the table around a subtest, by its number in the function's body, whose own body
already declares the case variable. -/
structure Bound (c : Config) (decl : Node) (stmt : Address) (k : Nat) (loop block : Node) : Prop where
  loop_at : decl.at? [1, k] = some loop
  block_of : loop.tableLoopBody? c.tableVar = some block
  around : [1, k, loop.children.length - 1] <+: stmt
  declared : ∃ t ∈ block.stmts, c.caseVar ∈ t.declared

lemma redeclares_rebound {stmt a : Address} {handle : String}
    (hr : Repair.of c (Plan.apply c decl (.subtest stmt handle)) stmt = .ok (.rebind a)) :
    ((Plan.apply c decl (.subtest stmt handle)).modifyAt (.prepend (.rebinding c.caseVar)) a).Redeclares ↔
      decl.Redeclares ∨ ∃ k loop block, Bound c decl stmt k loop block := by
  obtain ⟨body, k, loop, block, rest, hbody, hk, rfl, rfl, hblock, -⟩ := Repair.of_rebind_apply hr
  have hloop := Node.at?_stmt hbody hk
  have hat : decl.at? [1, k, loop.children.length - 1] = some block := by
    rw [show [1, k, loop.children.length - 1] = [1, k] ++ [loop.children.length - 1] from rfl,
      Node.at?_append, hloop, Option.bind_some, Node.at?_of_tableLoopBody? hblock]
  simp only [Plan.apply, Plan.target?]
  rw [Node.redeclares_rebind, Node.redeclares_parallelize, List.append_assoc,
    Node.at?_modifyAt_append, hat, Option.map_some]
  refine or_congr_right ⟨?_, ?_⟩
  · rintro ⟨b, hb, -, hd⟩
    obtain rfl := Option.some.inj hb
    rw [Node.exists_declared_modifyAt (Node.declared_parallelCall _ _)] at hd
    exact ⟨k, loop, block, hloop, hblock, List.prefix_append _ _, hd⟩
  · rintro ⟨k', loop', block', hloop', hblock', haround, hd⟩
    obtain ⟨rfl, -⟩ : k' = k ∧ _ := by simpa using haround
    obtain rfl := Option.some.inj (hloop.symm.trans hloop')
    obtain rfl := Option.some.inj (hblock.symm.trans hblock')
    rw [← Node.exists_declared_modifyAt (Node.declared_parallelCall _ _)] at hd
    exact ⟨_, rfl, Node.kind_of_mem_declared_stmts hd, hd⟩

lemma Did.redeclares_iff {state : Node} {result : Except Breach Status}
    (h : Did c types place decl state result) :
    state.Redeclares ↔ decl.Redeclares ∨ result = .ok .tableFixed ∧
      ∃ stmt handle k loop block, Plan.of c decl decl.handleName = .ok (.subtest stmt handle) ∧
        Bound c decl stmt k loop block := by
  cases h with
  | ignored | aborted | lost => simp
  | simple ht hp =>
    simp only [Plan.apply, Plan.target?]
    simp [Node.redeclares_parallelize]
  | subtest | astray =>
    simp only [Plan.apply, Plan.target?]
    simp [Node.redeclares_parallelize]
  | rebound ht hp hr =>
    rw [redeclares_rebound hr]
    refine or_congr_right ⟨?_, ?_⟩
    · rintro ⟨k, loop, block, hb⟩
      exact ⟨rfl, _, _, k, loop, block, hp, hb⟩
    · rintro ⟨-, stmt', handle', k, loop, block, hp', hb⟩
      obtain ⟨rfl, rfl⟩ := Plan.subtest.inj (Except.ok.inj (hp'.symm.trans hp))
      exact ⟨k, loop, block, hb⟩

/-- The work on a declaration leaves two statements of a list that declare one name just if they were
there before, or if it rebinds the case variable in a loop body that declares it already. -/
theorem redeclares_function_iff (c : Config) (types : TypeTable) (place : Place) (path : String)
    (log : Log.Logger) (decl : Node) :
    (function c types place path log decl).state.Redeclares ↔ decl.Redeclares ∨
      (function c types place path log decl).result.map Outcome.status = .ok .tableFixed ∧
      ∃ stmt handle k loop block, Plan.of c decl decl.handleName = .ok (.subtest stmt handle) ∧
        Bound c decl stmt k loop block :=
  (did_function c types place path log decl).redeclares_iff

def reboundSource : Source :=
  .ofString "a_test.go" ("package p\nimport \"testing\"\nfunc TestA(t *testing.T) \x7b\n" ++
    "\ttests := cases()\n\tfor _, tt := range tests \x7b\n\t\ttt := tt\n" ++
    "\t\tt.Run(tt.name, func(t *testing.T) \x7b\n\t\t\tt.Log(tt.in)\n\t\t\x7d)\n\t\x7d\n\x7d\n")

set_option maxRecDepth 100000 in
theorem redeclares_reboundSource :
    ∃ file types decl, reboundSource.parse = .ok file ∧ Types.resolveAll "p" [file] = .ok types ∧
      file.children[1]? = some decl ∧ ¬decl.Redeclares ∧
      (function {} types ⟨0, [1]⟩ "a_test.go" {} decl).state.Redeclares := by
  exact Source.exists_of_decl? (by decide +kernel)

end Edit

end ParallelTests
