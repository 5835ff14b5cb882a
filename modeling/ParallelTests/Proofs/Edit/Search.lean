import ParallelTests.Parser.File
import ParallelTests.Printer.Render
import ParallelTests.Proofs.Edit.Walk
import ParallelTests.TestFunction.Classification
import ParallelTests.Types.Resolve

namespace ParallelTests

namespace Node

variable {handle method : String}

inductive Clear (handle : String) : Node → Address → Node → Prop
  | here {n : Node} : Clear handle n [] n
  | step {n c m : Node} {i : Nat} {a : Address} (hi : n.children[i]? = some c)
      (hs : i ∉ n.shadowed handle) (h : Clear handle c a m) : Clear handle n (i :: a) m

lemma Clear.at? {n m : Node} {a : Address} (h : Clear handle n a m) : n.at? a = some m := by
  induction h with
  | here => rfl
  | step hi _ _ ih => rw [at?_cons, hi, Option.bind_some, ih]

lemma Clear.not_shadowed {n m k : Node} {a p : Address} {i : Nat} (h : Clear handle n a m)
    (hp : p ++ [i] <+: a) (hk : n.at? p = some k) : i ∉ k.shadowed handle := by
  induction h generalizing p with
  | here => simp at hp
  | @step n c m j a hi hs _ ih =>
    cases p with
    | nil =>
      obtain rfl := Option.some.inj hk
      obtain ⟨rfl, -⟩ := List.cons_prefix_cons.1 hp
      exact hs
    | cons j' p =>
      obtain ⟨rfl, hrest⟩ := List.cons_prefix_cons.1 hp
      rw [at?_cons, hi] at hk
      exact ih hrest hk

structure Sought (handle method : String) (a : Address) (n : Node) (s : Search) (r : Bool × Search) :
    Prop where
  hidden : s.hidden ⊆ r.2.hidden
  past : r.1 = true → r.2.found = s.found
  stopped : r.1 = false → a ∉ s.hidden ∧ ∃ rel stmt, r.2.found = some (a ++ rel, stmt) ∧
    Clear handle n rel stmt ∧ (stmt.subtestCall? handle method).isSome = true

lemma Chain.hidden {a : Address} {i : Nat} {cs : List Node} {s : Search} {r : Bool × Search}
    (h : Chain (Sought handle method) a i cs s r) : s.hidden ⊆ r.2.hidden := by
  induction h with
  | nil => exact fun _ hx => hx
  | halt h => exact h.hidden
  | next h _ ih => exact List.Subset.trans h.hidden ih

lemma Chain.past {a : Address} {i : Nat} {cs : List Node} {s : Search} {r : Bool × Search}
    (h : Chain (Sought handle method) a i cs s r) (hr : r.1 = true) : r.2.found = s.found := by
  induction h with
  | nil => rfl
  | halt _ => simp at hr
  | next h _ ih => exact (ih hr).trans (h.past rfl)

lemma Chain.stopped {a : Address} {i : Nat} {cs : List Node} {s : Search} {r : Bool × Search}
    (h : Chain (Sought handle method) a i cs s r) (hr : r.1 = false) :
    ∃ j c rel stmt, cs[j]? = some c ∧ a ++ [i + j] ∉ s.hidden ∧
      r.2.found = some (a ++ (i + j) :: rel, stmt) ∧ Clear handle c rel stmt ∧
      (stmt.subtestCall? handle method).isSome = true := by
  induction h with
  | nil => simp at hr
  | halt h =>
    obtain ⟨hh, rel, stmt, hf, hc, hs⟩ := h.stopped rfl
    exact ⟨0, _, rel, stmt, rfl, hh, by simpa using hf, hc, hs⟩
  | next h _ ih =>
    obtain ⟨j, c, rel, stmt, hj, hh, hf, hc, hs⟩ := ih hr
    rw [Nat.add_right_comm, Nat.add_assoc] at hh hf
    exact ⟨j + 1, c, rel, stmt, hj, fun hm => hh (h.hidden hm), hf, hc, hs⟩

lemma sought_of_walk {a : Address} {n : Node} {s : Search} {r : Bool × Search}
    (h : n.walk (searchStep handle method) a s = .ok r) : Sought handle method a n s r := by
  refine walk_induct ?_ ?_ ?_ h
  · intro a n s s' hv
    unfold searchStep at hv
    split at hv
    · cases hv
    · next ha =>
      split at hv
      · next hs =>
        cases hv
        exact ⟨List.subset_append_left _ _, by simp,
          fun _ => ⟨ha, [], n, by simp, .here, hs⟩⟩
      · cases hv
  · intro a n s s' hv
    unfold searchStep at hv
    split at hv
    · cases hv
      exact ⟨fun _ hx => hx, fun _ => rfl, by simp⟩
    · split at hv <;> cases hv
  · intro a n s s' r hv hc
    unfold searchStep at hv
    split at hv
    · cases hv
    · next ha =>
      split at hv
      · cases hv
      · cases hv
        refine ⟨List.Subset.trans (List.subset_append_left _ _) hc.hidden, hc.past, fun hr => ⟨ha, ?_⟩⟩
        obtain ⟨j, c, rel, stmt, hj, hh, hf, hcl, hs⟩ := hc.stopped hr
        rw [Nat.zero_add] at hh hf
        refine ⟨j :: rel, stmt, hf, .step hj (fun hm => hh ?_) hcl, hs⟩
        exact List.mem_append_right _ (List.mem_map.2 ⟨j, hm, rfl⟩)

theorem findSubtest_spec {at_ a : Address} {n stmt : Node}
    (h : n.findSubtest handle method at_ = .ok (some (a, stmt))) :
    ∃ rel, a = at_ ++ rel ∧ Clear handle n rel stmt ∧
      (stmt.subtestCall? handle method).isSome = true := by
  obtain ⟨⟨going, s⟩, hw, hf⟩ := Except.map_eq_ok_iff.1 h
  have hs := sought_of_walk hw
  cases going with
  | true =>
    have := hs.past rfl
    simp_all
  | false =>
    obtain ⟨-, rel, stmt', hf', hc, hcall⟩ := hs.stopped rfl
    rw [hf', Option.some.injEq, Prod.mk.injEq] at hf
    obtain ⟨rfl, rfl⟩ := hf
    exact ⟨rel, rfl, hc, hcall⟩

inductive Declares (name : String) : Node → Prop
  | short {n v : Node} {lhs rhs : List Node} (h : n.shape = .assign lhs ":=" rhs) (hv : v ∈ lhs)
      (hn : v.ident? = some name) : Declares name n
  | var {n v : Node} {names values : List Node} {type : Option Node}
      (h : n.shape = .varStmt names type values) (hv : v ∈ names) (hn : v.ident? = some name) :
      Declares name n

/-- The numbers of the children of a node in the scope of a declaration of a name: the body of a
function literal with such a parameter, the body of a loop with such a variable, and what follows
such a statement. -/
inductive Scopes (name : String) : Node → Nat → Prop
  | param {n type body field v : Node} {signature : String}
      (h : n.shape = .funcLit signature type body) (hf : field ∈ type.params) (hv : v ∈ field.names)
      (hn : v.ident? = some name) : Scopes name n 1
  | range {n x body v : Node} {key value : Option Node}
      (h : n.shape = .rangeStmt key value (some ":=") x body) (hv : v ∈ key.toList ++ value.toList)
      (hn : v.ident? = some name) : Scopes name n (n.children.length - 1)
  | block {n s : Node} {stmts : List Node} {oneLine : Bool} {lead : Option String} {i j : Nat}
      (h : n.shape = .block stmts oneLine lead) (hs : stmts[j]? = some s) (hd : Declares name s)
      (hj : j < i) : Scopes name n i
  | clause {n s header : Node} {body : List Node} {i j : Nat}
      (h : n.shape = .caseClause header body) (hs : body[j]? = some s) (hd : Declares name s)
      (hj : j < i) : Scopes name n (i + 1)

lemma binds_of_mem {ns : List Node} {v : Node} (hv : v ∈ ns) (hn : v.ident? = some handle) :
    binds ns handle = true :=
  List.any_eq_true.2 ⟨v, hv, by simp [isNamed, hn]⟩

lemma Declares.rebinds {n : Node} (h : Declares handle n) : n.rebinds handle = true := by
  cases h with
  | short h hv hn =>
    simp only [Node.rebinds, h]
    exact binds_of_mem hv hn
  | var h hv hn =>
    simp only [Node.rebinds, h]
    exact binds_of_mem hv hn

lemma mem_afterRebinding {stmts : List Node} {s : Node} {i j : Nat} (hs : stmts[j]? = some s)
    (hd : Declares handle s) (hj : j < i) (hi : i < stmts.length) :
    i ∈ afterRebinding handle stmts := by
  obtain ⟨hlt, rfl⟩ := List.getElem?_eq_some_iff.1 hs
  unfold afterRebinding
  cases hf : stmts.findIdx? (rebinds handle) with
  | none => simpa [hd.rebinds] using List.findIdx?_eq_none_iff.1 hf _ (List.getElem_mem hlt)
  | some k =>
    obtain ⟨hk, -, hleast⟩ := List.findIdx?_eq_some_iff_getElem.1 hf
    have hkj : k ≤ j := by
      by_contra hn
      exact hleast j (by omega) hd.rebinds
    refine List.mem_drop_iff_getElem.2 ⟨i - (k + 1), ?_, ?_⟩
    · rw [List.length_range]
      omega
    · rw [List.getElem_range]
      omega

lemma mem_shadowed_of_scopes {n : Node} {i : Nat} (h : Scopes handle n i)
    (hi : i < n.children.length) : i ∈ n.shadowed handle := by
  cases h with
  | @param type _ field _ _ h hf hv hn =>
    have hany : type.params.any (fun p => binds p.names handle) = true :=
      List.any_eq_true.2 ⟨field, hf, binds_of_mem hv hn⟩
    simp [shadowed, h, hany]
  | range h hv hn => simp only [shadowed, h, binds_of_mem hv hn, if_true, List.mem_singleton]
  | block h hs hd hj =>
    simp only [shadowed, h]
    rw [children, h] at hi
    exact mem_afterRebinding hs hd hj hi
  | clause h hs hd hj =>
    simp only [shadowed, h, List.mem_map]
    rw [children, h, Shape.children, List.length_cons] at hi
    exact ⟨_, mem_afterRebinding hs hd hj (by omega), rfl⟩

/-- The subtest that is found is a call on the test's own handle, as far as closures' parameters,
declarations that are statements of a block or a case body, and loop variables can tell. -/
theorem findSubtest_outside_scopes {at_ a : Address} {body stmt : Node}
    (h : body.findSubtest handle method at_ = .ok (some (a, stmt))) :
    (stmt.subtestCall? handle method).isSome = true ∧ ∃ rel, a = at_ ++ rel ∧
      body.at? rel = some stmt ∧ ∀ (p : Address) (i : Nat) (m : Node), p ++ [i] <+: rel →
        body.at? p = some m → ¬Scopes handle m i := by
  obtain ⟨rel, rfl, hc, hs⟩ := findSubtest_spec h
  refine ⟨hs, rel, rfl, hc.at?, fun p i m hp hm hscope => ?_⟩
  obtain ⟨q, rfl⟩ := hp
  have hi : i < m.children.length := by
    have hat := hc.at?
    rw [List.append_assoc, at?_append, hm, Option.bind_some, List.singleton_append, at?_cons] at hat
    obtain ⟨c, hc, -⟩ := Option.bind_eq_some_iff.1 hat
    exact (List.getElem?_eq_some_iff.1 hc).1
  exact hc.not_shadowed (List.prefix_append _ _) hm (mem_shadowed_of_scopes hscope hi)

end Node

lemma Source.exists_of_parse {src : Source} {P : Node → Prop} [DecidablePred P]
    (h : src.parse.toOption.any (fun file => decide (P file)) = true) :
    ∃ file, src.parse = .ok file ∧ P file := by
  obtain ⟨file, hfile, h⟩ := (Option.any_eq_true _ _).1 h
  exact ⟨file, Except.toOption_eq_some.1 hfile, of_decide_eq_true h⟩

def Source.decl? (src : Source) (i : Nat) : Option (TypeTable × Node) := do
  let file ← src.parse.toOption
  let types ← (Types.resolveAll "p" [file]).toOption
  let decl ← file.children[i]?
  return (types, decl)

lemma Source.exists_of_decl? {src : Source} {i : Nat} {P : TypeTable → Node → Prop}
    [∀ types decl, Decidable (P types decl)]
    (h : (src.decl? i).any (fun p => decide (P p.1 p.2)) = true) :
    ∃ file types decl, src.parse = .ok file ∧ Types.resolveAll "p" [file] = .ok types ∧
      file.children[i]? = some decl ∧ P types decl := by
  obtain ⟨p, hd, h⟩ := (Option.any_eq_true _ _).1 h
  obtain ⟨file, hfile, hd⟩ := Option.bind_eq_some_iff.1 hd
  obtain ⟨types, htypes, hd⟩ := Option.bind_eq_some_iff.1 hd
  obtain ⟨decl, hdecl, hd⟩ := Option.bind_eq_some_iff.1 hd
  obtain rfl := Option.some.inj hd
  exact ⟨file, types, decl, Except.toOption_eq_some.1 hfile, Except.toOption_eq_some.1 htypes,
    hdecl, of_decide_eq_true h⟩

def nestedSource (stmt : String) : Source :=
  .ofString "a_test.go" ("package p\nimport \"testing\"\nfunc TestA(t *testing.T) \x7b\n" ++
    "\tif ok() \x7b\n\t\t" ++ stmt ++ "\n" ++
    "\t\tt.Run(\"a\", func(t *testing.T) \x7b\n\t\t\tt.Log()\n\t\t\x7d)\n\t\x7d\n\x7d\n")

set_option maxRecDepth 100000 in
theorem findSubtest_nestedSource :
    ∃ file types decl, (nestedSource "s := wrap(t)").parse = .ok file ∧
      Types.resolveAll "p" [file] = .ok types ∧ file.children[1]? = some decl ∧
      ∃ body stmt, decl.body? = some body ∧
        body.findSubtest "t" "Run" [1] = .ok (some ([1, 0, 0, 1], stmt)) ∧
        (stmt.subtestCall? "t" "Run").isSome = true := by
  have h : ∃ file types decl, (nestedSource "s := wrap(t)").parse = .ok file ∧
      Types.resolveAll "p" [file] = .ok types ∧ file.children[1]? = some decl ∧
      (decl.body?.bind fun body => (body.findSubtest "t" "Run" [1]).toOption.bind
        (Option.map Prod.fst)) = some [1, 0, 0, 1] := Source.exists_of_decl? (by decide +kernel)
  obtain ⟨file, types, decl, hfile, htypes, hdecl, h⟩ := h
  obtain ⟨body, hb, h⟩ := Option.bind_eq_some_iff.1 h
  obtain ⟨found, hf, h⟩ := Option.bind_eq_some_iff.1 h
  obtain ⟨⟨a, stmt⟩, rfl, rfl⟩ := Option.map_eq_some_iff.1 h
  have hf := Except.toOption_eq_some.1 hf
  exact ⟨file, types, decl, hfile, htypes, hdecl, body, stmt, hb, hf,
    (Node.findSubtest_outside_scopes hf).1⟩

set_option maxRecDepth 100000 in
/-- Behind a group of variables, one of them with the handle's name, the subtest is found, too. -/
theorem findSubtest_grouped_nestedSource :
    ∃ file types decl, (nestedSource "var (\n\t\t\tt = wrap(t)\n\t\t)").parse = .ok file ∧
      Types.resolveAll "p" [file] = .ok types ∧ file.children[1]? = some decl ∧
      decl.handleName = some "t" ∧
      ((decl.at? [1, 0, 0, 0]).bind (·.render.toOption)) = some "var (\n\t\t\tt = wrap(t)\n\t\t)" ∧
      (decl.body?.bind fun body => (body.findSubtest "t" "Run" [1]).toOption.bind
        (Option.map Prod.fst)) = some [1, 0, 0, 1] :=
  Source.exists_of_decl? (by decide +kernel)

end ParallelTests
