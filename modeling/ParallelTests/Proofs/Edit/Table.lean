import ParallelTests.Proofs.Edit.Steps
import ParallelTests.Proofs.Print.RoundTrip

namespace ParallelTests

namespace Node

inductive Fills (name : String) : Node → Prop
  | declared {n : Node} (h : Declares name n) : Fills name n
  | assigned {n v : Node} {lhs rhs : List Node} (h : n.shape = .assign lhs "=" rhs) (hv : v ∈ lhs)
      (hn : v.ident? = some name) : Fills name n

lemma exists_of_binds {ns : List Node} {name : String} (h : binds ns name = true) :
    ∃ v ∈ ns, v.ident? = some name := by
  obtain ⟨v, hv, hn⟩ := List.any_eq_true.1 h
  exact ⟨v, hv, by simpa [isNamed] using hn⟩

lemma bindsTable_iff {name : String} {n : Node} : n.bindsTable name = true ↔ Fills name n := by
  constructor
  · intro h
    unfold bindsTable at h
    split at h
    · next hs =>
      obtain ⟨v, hv, hn⟩ := exists_of_binds h
      exact .declared (.short hs hv hn)
    · next hs =>
      obtain ⟨v, hv, hn⟩ := exists_of_binds h
      exact .assigned hs hv hn
    · next hs =>
      obtain ⟨v, hv, hn⟩ := exists_of_binds h
      exact .declared (.var hs hv hn)
    · cases h
  · rintro (⟨⟨h, hv, hn⟩ | ⟨h, hv, hn⟩⟩ | ⟨h, hv, hn⟩)
    all_goals simpa [bindsTable, h] using binds_of_mem hv hn

lemma stmts_prepend {s n : Node} (h : n.kind = .block) : (prepend s n).stmts = s :: n.stmts := by
  obtain ⟨span, layout, pieces, shape⟩ := n
  cases shape with
  | block => rfl
  | _ => cases h

end Node

/-- The table idiom in a body: a statement that fills the table, and a loop over the table with a
number, whose case variable has the name it should. -/
structure TableLoop (c : Config) (body : Node) (k : Nat) (loop block : Node) : Prop where
  filled : ∃ s ∈ body.stmts, s.Fills c.tableVar
  loop_at : body.stmts[k]? = some loop
  ranges : ∃ key value tok x, loop.shape = .rangeStmt key value tok x block ∧
    x.ident? = some c.tableVar ∧ ∃ v, value.or key = some v ∧ v.ident? = some c.caseVar

namespace TableLoop

variable {c : Config} {body loop block : Node} {k : Nat}

lemma block_of (h : TableLoop c body k loop block) : loop.tableLoopBody? c.tableVar = some block := by
  obtain ⟨key, value, tok, x, hs, hx, -⟩ := h.ranges
  simp [Node.tableLoopBody?, hs, Node.isNamed, hx]

lemma caseVar (h : TableLoop c body k loop block) :
    loop.caseVar?.any (·.isNamed c.caseVar) = true := by
  obtain ⟨key, value, tok, x, hs, -, v, hv, hn⟩ := h.ranges
  simp [Node.caseVar?, hs, hv, Node.isNamed, hn]

lemma of_stmts (hf : ∃ s ∈ body.stmts, s.bindsTable c.tableVar = true)
    (hk : body.stmts[k]? = some loop) (hb : loop.tableLoopBody? c.tableVar = some block)
    (hc : loop.caseVar?.any (·.isNamed c.caseVar) = true) : TableLoop c body k loop block := by
  obtain ⟨s, hs, hf⟩ := hf
  refine ⟨⟨s, hs, Node.bindsTable_iff.1 hf⟩, hk, ?_⟩
  obtain ⟨span, layout, pieces, shape⟩ := loop
  cases shape with
  | rangeStmt key value tok x b =>
    simp only [Node.tableLoopBody?, Node.shape, Option.ite_none_right_eq_some] at hb
    obtain rfl := Option.some.inj hb.2
    refine ⟨key, value, tok, x, rfl, by simpa [Node.isNamed] using hb.1, ?_⟩
    simpa [Node.caseVar?, Node.shape, Option.any_eq_true, Node.isNamed] using hc
  | _ => cases hb

lemma not_bindsTable (h : TableLoop c body k loop block) : loop.bindsTable c.tableVar = false := by
  obtain ⟨key, value, tok, x, hs, -⟩ := h.ranges
  simp [Node.bindsTable, hs]

end TableLoop

namespace Repair

lemma tableLoop_eq {named : String → Prop} {name : String} {stmts : List Node}
    (hs : ∀ s ∈ stmts, Shaped named s) {k : Nat} {loop block m : Node} {rel : Address}
    (hk : stmts[k]? = some loop) (hb : loop.tableLoopBody? name = some block)
    (hm : block.at? rel = some m) (index : Nat) :
    tableLoop name ([1, index + k, loop.children.length - 1] ++ rel) index stmts =
      .ok (some ([1, index + k, loop.children.length - 1], loop)) := by
  induction stmts generalizing index k with
  | nil => simp at hk
  | cons stmt rest ih =>
    have held {body : Node} (hbody : stmt.tableLoopBody? name = some body) :=
      (Node.known_of_shaped ((hs stmt (by simp)).at? (Node.at?_of_tableLoopBody? hbody))).holds_ok
        [1, index, stmt.children.length - 1] ([1, index + k, loop.children.length - 1] ++ rel)
    rw [tableLoop]
    cases k with
    | zero =>
      obtain rfl := Option.some.inj hk
      obtain ⟨b, hheld⟩ := held hb
      obtain rfl := (Node.holds_eq_ok hheld).2 ⟨rel, m, hm, rfl⟩
      simp only [hb, hheld]
      rfl
    | succ k =>
      have hrest := ih (fun s h => hs s (by simp [h])) hk (index + 1)
      rw [Nat.add_right_comm, Nat.add_assoc] at hrest
      cases hbody : stmt.tableLoopBody? name with
      | none => exact hrest
      | some body =>
        obtain ⟨b, hheld⟩ := held hbody
        have hb : b = false := by
          by_contra hb
          obtain ⟨rel', _, -, he⟩ := (Node.holds_eq_ok hheld).1 (by simpa using hb)
          have : index = index + (k + 1) := by simpa using (List.cons.inj (List.cons.inj he).2).1
          omega
        simp only [hheld, hb]
        exact hrest

lemma of_eq_rebind {named : String → Prop} {c : Config} {decl body loop block m : Node} {k : Nat}
    {rel : Address} (hs : Shaped named decl) (hb : decl.body? = some body)
    (hany : ∃ s ∈ body.stmts, s.bindsTable c.tableVar = true) (hk : body.stmts[k]? = some loop)
    (hblock : loop.tableLoopBody? c.tableVar = some block)
    (hcase : loop.caseVar?.any (·.isNamed c.caseVar) = true) (hm : block.at? rel = some m) :
    of c decl ([1, k, loop.children.length - 1] ++ rel) =
      .ok (rebind [1, k, loop.children.length - 1]) := by
  have hstmts (s : Node) (h : s ∈ body.stmts) : Shaped named s := by
    obtain ⟨i, hi⟩ := List.mem_iff_getElem?.1 h
    exact hs.at? (Node.at?_stmt hb hi)
  have hloop := tableLoop_eq hstmts hk hblock hm 0
  rw [Nat.zero_add] at hloop
  unfold of
  simp only [hb, Option.map_some, Option.getD_some]
  rw [if_pos (List.any_eq_true.2 hany), hloop]
  simp only [bind, Except.bind, hcase, if_true]
  rfl

lemma of_apply {named : String → Prop} {c : Config} {decl body loop block m : Node} {k : Nat}
    {rel : Address} (inner : String) (hs : Shaped named decl) (hi : named inner)
    (hn : named c.parallelMethod) (hb : decl.body? = some body) (h : TableLoop c body k loop block)
    (hm : block.at? rel = some m) :
    of c (Plan.apply c decl (.subtest ([1, k, loop.children.length - 1] ++ rel) inner))
        ([1, k, loop.children.length - 1] ++ rel) =
      .ok (rebind [1, k, loop.children.length - 1]) := by
  let f := Node.prepend (.parallelCall inner c.parallelMethod)
  have hshaped : Shaped named (Plan.apply c decl
      (.subtest ([1, k, loop.children.length - 1] ++ rel) inner)) :=
    hs.modifyAt (Node.alike_prepend _) (fun m hm => hm.prepend (.parallelCall hi hn) rfl) _
  have hbody : (Plan.apply c decl (.subtest ([1, k, loop.children.length - 1] ++ rel) inner)).body? =
      some (body.modifyAt f (k :: (loop.children.length - 1) :: (rel ++ [0, 2, 1]))) := by
    simp only [Plan.apply, Plan.target?, List.cons_append, List.nil_append]
    rw [Node.body?_modifyAt, hb]
    rfl
  have hk : (body.modifyAt f (k :: (loop.children.length - 1) :: (rel ++ [0, 2, 1]))).stmts[k]? =
      some (loop.modifyAt f ((loop.children.length - 1) :: (rel ++ [0, 2, 1]))) := by
    rw [Node.stmts_modifyAt, List.getElem?_modify_eq, h.loop_at]
    rfl
  have hany : ∃ s ∈ (body.modifyAt f (k :: (loop.children.length - 1) :: (rel ++ [0, 2, 1]))).stmts,
      s.bindsTable c.tableVar = true := by
    obtain ⟨s, hs, hfill⟩ := h.filled
    obtain ⟨j, hj⟩ := List.mem_iff_getElem?.1 hs
    have hjk : k ≠ j := by
      rintro rfl
      obtain rfl := Option.some.inj (h.loop_at.symm.trans hj)
      simpa [Node.bindsTable_iff.2 hfill] using h.not_bindsTable
    refine ⟨s, List.mem_iff_getElem?.2 ⟨j, ?_⟩, Node.bindsTable_iff.2 hfill⟩
    rw [Node.stmts_modifyAt, List.getElem?_modify_ne _ _ hjk, hj]
  have hblock := Node.tableLoopBody?_modifyAt f (rel ++ [0, 2, 1]) loop c.tableVar
  rw [h.block_of, Option.map_some] at hblock
  have hcase := h.caseVar
  rw [← Node.caseVar?_modifyAt f (rel ++ [0, 2, 1])] at hcase
  have hat : (block.modifyAt f (rel ++ [0, 2, 1])).at? rel = some (m.modifyAt f [0, 2, 1]) := by
    rw [Node.at?_modifyAt_append, hm]
    rfl
  have hfound := of_eq_rebind hshaped hbody hany hk hblock hcase hat
  rwa [Node.children_modifyAt, List.length_modify] at hfound

end Repair

namespace Edit

variable {c : Config} {types : TypeTable} {place : Place} {path : String} {log : Log.Logger}
  {decl : Node}

lemma function_rebound {stmt a : Address} {handle : String} (path : String) (log : Log.Logger)
    (ht : Classification.of c types place decl = .isTest)
    (hp : Plan.of c decl decl.handleName = .ok (.subtest stmt handle))
    (hr : Repair.of c (Plan.apply c decl (.subtest stmt handle)) stmt = .ok (.rebind a)) :
    (function c types place path log decl).result = .ok ⟨path, decl.funcName, .tableFixed, []⟩ ∧
      (function c types place path log decl).state =
        (Plan.apply c decl (.subtest stmt handle)).modifyAt (.prepend (.rebinding c.caseVar)) a := by
  simp [function, parallelize, repair, ht, hp, hr, Repair.isFixed, Repair.apply, Except.map]

/-- In a test of a source that is parsed, the case variable is rebound whenever a loop over the
table, which is a statement of the body itself and has no label, is around the subtest. The rest of
the loop's body stays, but for the call in the closure. -/
theorem tableFixed_of_tableLoop {src : Source} {file body loop block : Node} {k : Nat}
    {rel : Address} {inner : String} (hsrc : src.parse = .ok file) (hdecl : decl ∈ file.children)
    (ht : Classification.of c types place decl = .isTest) (hb : decl.body? = some body)
    (hloop : TableLoop c body k loop block)
    (hp : Plan.of c decl decl.handleName =
      .ok (.subtest ([1, k, loop.children.length - 1] ++ rel) inner)) :
    (function c types place path log decl).result = .ok ⟨path, decl.funcName, .tableFixed, []⟩ ∧
      ∃ new, (function c types place path log decl).state.at? [1, k, loop.children.length - 1] =
          some new ∧
        new.stmts = .rebinding c.caseVar :: (block.modifyAt
          (.prepend (.parallelCall inner c.parallelMethod)) (rel ++ [0, 2, 1])).stmts := by
  obtain ⟨-, hformed, -⟩ := Source.lies_of_parse (Source.parse_eq_ok_iff.1 hsrc)
  have hshaped : Shaped (fun _ => True) decl := (hformed.child hdecl).mono fun _ _ => trivial
  have hat : decl.at? [1, k, loop.children.length - 1] = some block := by
    have h := Node.at?_append decl [1, k] [loop.children.length - 1]
    rwa [Node.at?_stmt hb hloop.loop_at, Option.bind_some,
      Node.at?_of_tableLoopBody? hloop.block_of] at h
  have hkind : block.kind = .block := by
    obtain ⟨key, value, tok, x, hshape, -⟩ := hloop.ranges
    have hproper := (hshaped.at? (Node.at?_stmt hb hloop.loop_at)).proper
    rw [hshape] at hproper
    exact hproper.2
  obtain ⟨body', name, rel', hb', -, hrel, ⟨found⟩⟩ := Plan.of_subtest hp
  have hfound : block.at? rel = some found.stmt := by
    have h := Node.at?_append decl [1, k, loop.children.length - 1] rel
    rw [hat, Option.bind_some, hrel, ← List.singleton_append, Node.at?_append,
      Node.at?_of_body? hb', Option.bind_some, found.clear.at?] at h
    exact h.symm
  have hr := Repair.of_apply inner hshaped trivial trivial hb hloop hfound
  obtain ⟨hresult, hstate⟩ := function_rebound path log ht hp hr
  have hcall : (Plan.apply c decl (.subtest ([1, k, loop.children.length - 1] ++ rel) inner)).at?
      [1, k, loop.children.length - 1] = some (block.modifyAt
        (.prepend (.parallelCall inner c.parallelMethod)) (rel ++ [0, 2, 1])) := by
    simp only [Plan.apply, Plan.target?]
    rw [List.append_assoc, Node.at?_modifyAt_append, hat]
    rfl
  refine ⟨hresult, _, by rw [hstate, Node.at?_modifyAt, hcall]; rfl, Node.stmts_prepend ?_⟩
  rw [(Node.alike_modifyAt (Node.alike_prepend _) _ _).kind, hkind]

def tableSource (label jump : String) : Source :=
  .ofString "a_test.go" ("package p\nimport \"testing\"\nfunc TestA(t *testing.T) \x7b\n" ++
    "\ttests := cases()\n" ++ label ++ "\tfor _, tt := range tests \x7b\n" ++
    "\t\tif tt.skip \x7b\n\t\t\tcontinue" ++ jump ++ "\n\t\t\x7d\n" ++
    "\t\tt.Run(tt.name, func(t *testing.T) \x7b\n\t\t\tt.Log(tt.in)\n\t\t\x7d)\n\t\x7d\n\x7d\n")

set_option maxRecDepth 100000 in
theorem tableFixed_tableSource :
    ∃ file types decl, (tableSource "" "").parse = .ok file ∧ Types.resolveAll "p" [file] = .ok types ∧
      file.children[1]? = some decl ∧
      (function {} types ⟨0, [1]⟩ "a_test.go" {} decl).result =
        .ok ⟨"a_test.go", decl.funcName, .tableFixed, []⟩ := by
  have h : ∃ file types decl, (tableSource "" "").parse = .ok file ∧
      Types.resolveAll "p" [file] = .ok types ∧ file.children[1]? = some decl ∧
      Classification.of {} types ⟨0, [1]⟩ decl = .isTest ∧
      (Plan.of {} decl decl.handleName).toOption = some (.subtest [1, 1, 3, 1] "t") ∧
      decl.body?.any (fun body => body.stmts.any (·.bindsTable "tests") &&
        body.stmts[1]?.any fun loop => (loop.tableLoopBody? "tests").isSome &&
          loop.caseVar?.any (·.isNamed "tt") && loop.children.length = 4) = true :=
    Source.exists_of_decl? (by decide +kernel)
  obtain ⟨file, types, decl, hfile, htypes, hdecl, ht, hp, h⟩ := h
  simp only [Bool.and_eq_true, decide_eq_true_eq, Option.any_eq_true] at h
  obtain ⟨body, hb, hfill, loop, hk, ⟨hblock, hcase⟩, hlen⟩ := h
  obtain ⟨block, hblock⟩ := Option.isSome_iff_exists.1 hblock
  have hloop : TableLoop {} body 1 loop block :=
    .of_stmts (List.any_eq_true.1 hfill) hk hblock ((Option.any_eq_true _ _).2 hcase)
  have hplan : Plan.of {} decl decl.handleName =
      .ok (.subtest ([1, 1, loop.children.length - 1] ++ [1]) "t") := by
    rw [hlen]
    exact Except.toOption_eq_some.1 hp
  exact ⟨file, types, decl, hfile, htypes, hdecl,
    (tableFixed_of_tableLoop hfile (List.mem_of_getElem? hdecl) ht hb hloop hplan).1⟩

set_option maxRecDepth 100000 in
/-- With a label before it, the same loop is passed over. -/
theorem subtestParallelized_labeled_tableSource :
    ∃ file types decl, (tableSource "L:\n" " L").parse = .ok file ∧
      Types.resolveAll "p" [file] = .ok types ∧ file.children[1]? = some decl ∧
      (Classification.of {} types ⟨0, [1]⟩ decl = .isTest ∧
        decl.body?.any (·.stmts.any (·.bindsTable "tests")) = true ∧
        (decl.at? [1, 1]).map Node.kind = some .labeled ∧
        (decl.at? [1, 1, 1]).any (fun loop => (loop.tableLoopBody? "tests").isSome &&
          loop.caseVar?.any (·.isNamed "tt") && loop.children.length = 4) = true ∧
        (Plan.of {} decl decl.handleName).toOption = some (.subtest [1, 1, 1, 3, 1] "t")) ∧
      (function {} types ⟨0, [1]⟩ "a_test.go" {} decl).result.toOption =
        some ⟨"a_test.go", "TestA", .subtestParallelized, []⟩ := by
  exact Source.exists_of_decl? (by decide +kernel)

end Edit

end ParallelTests
