import ParallelTests.Parser.File
import ParallelTests.Proofs.Result

namespace ParallelTests

def Shape.label (s : Shape) : Shape :=
  match s.mapChildren fun _ _ => .bare (.unknown "") with
  | funcLit _ type body => funcLit "" type body
  | funcDecl name type _ recv body => funcDecl (.bare name.shape) type "" (recv.map fun _ => "") body
  | importDecl specs => importDecl (specs.map fun n => .bare n.shape)
  | file path package imports decls => file path package (imports.map fun n => .bare n.shape) decls
  | other => other

/-- The labels of a tree in the order of a walk. They determine its nodes and how they are nested. -/
def Node.outline (n : Node) : List Shape :=
  n.shape.label :: n.children.attach.flatMap fun ⟨c, h⟩ =>
    have := weight_lt_of_mem_children h
    outline c
termination_by n.weight

lemma Node.outline_eq (n : Node) : n.outline = n.shape.label :: n.children.flatMap outline := by
  rw [outline]
  conv => rhs; rw [← List.attach_map_subtype_val n.children, List.flatMap_map]

lemma Shape.length_children_label (s : Shape) : s.label.children.length = s.children.length := by
  cases s with
  | varStmt names type => cases type <;> simp [label, mapChildren, children]
  | rangeStmt key value => cases key <;> cases value <;> simp [label, mapChildren, children]
  | labeled label stmt => cases stmt <;> simp [Shape.label, mapChildren, children]
  | funcDecl name type signature recv body => cases body <;> simp [label, mapChildren, children]
  | _ => simp [label, mapChildren, children]

namespace Node

variable {n m : Node} {cs ds : List Node} {xs ys : List Shape}

lemma outline_of_label {a b : Shape} (hn : n.shape = a) (hm : m.shape = b) (hl : a.label = b.label)
    (hc : a.children.map outline = b.children.map outline) : n.outline = m.outline := by
  rw [outline_eq, outline_eq, children, children, hn, hm, hl, List.flatMap_def, hc, ← List.flatMap_def]

lemma outline_of_shape (h : n.shape = m.shape) : n.outline = m.outline :=
  outline_of_label h rfl rfl rfl

lemma map_outline_inj (hlength : cs.length = ds.length)
    (hc : ∀ c ∈ cs, ∀ (d : Node) (xs ys : List Shape), c.outline ++ xs = d.outline ++ ys →
      c.outline = d.outline ∧ xs = ys)
    (h : cs.flatMap outline ++ xs = ds.flatMap outline ++ ys) :
    cs.map outline = ds.map outline ∧ xs = ys := by
  induction cs generalizing ds with
  | nil =>
    obtain rfl := List.length_eq_zero_iff.1 hlength.symm
    exact ⟨rfl, h⟩
  | cons c cs ih =>
    obtain ⟨d, ds, rfl⟩ := List.exists_cons_of_length_eq_add_one hlength.symm
    obtain ⟨hhead, htail⟩ := List.forall_mem_cons.1 hc
    simp only [List.flatMap_cons, List.append_assoc] at h
    obtain ⟨hcd, hrest⟩ := hhead d _ _ h
    obtain ⟨hmap, hxs⟩ := ih (by simpa using hlength) htail hrest
    exact ⟨by rw [List.map_cons, List.map_cons, hcd, hmap], hxs⟩

lemma outline_append_inj (h : n.outline ++ xs = m.outline ++ ys) :
    n.shape.label = m.shape.label ∧ n.children.map outline = m.children.map outline ∧ xs = ys := by
  induction hw : n.weight using Nat.strongRecOn generalizing n m xs ys with
  | ind w ih =>
    subst hw
    rw [outline_eq n, outline_eq m, List.cons_append, List.cons_append, List.cons.injEq] at h
    obtain ⟨hl, hc⟩ := h
    have hlength : n.children.length = m.children.length := by
      rw [children, children, ← Shape.length_children_label, hl, Shape.length_children_label]
    refine ⟨hl, map_outline_inj hlength (fun c hc d xs ys h => ?_) hc⟩
    obtain ⟨hl, hmap, hxs⟩ := ih c.weight (weight_lt_of_mem_children hc) h rfl
    exact ⟨outline_of_label rfl rfl hl hmap, hxs⟩

/-- Trees of one outline have one label at their roots and below them, one by one, trees of one
outline. -/
theorem outline_eq_iff :
    n.outline = m.outline ↔
      n.shape.label = m.shape.label ∧ n.children.map outline = m.children.map outline := by
  constructor
  · intro h
    obtain ⟨hl, hc, -⟩ := outline_append_inj (congrArg (· ++ []) h)
    exact ⟨hl, hc⟩
  · exact fun ⟨hl, hc⟩ => outline_of_label rfl rfl hl hc

end Node

/-- A source with a semicolon put in at an offset. -/
def Source.withSemicolon (src : Source) (k : Nat) : Source :=
  { src with chars := src.chars.take k ++ ';' :: src.chars.drop k }

def closedSource : Source :=
  .ofString "p.go" ("package p\nfunc f() \x7b\n\tif x \x7b\n\t\ta()\n\t\x7d\n" ++
    "\tfor y \x7b\n\t\tb()\n\t\x7d\n\x7d\n")

set_option maxRecDepth 100000 in
/-- With a semicolon written behind the first body, the braces of the second are taken for it. -/
theorem outline_ne_closedSource :
    ∃ s before t semi after, TokenStream.ofSource closedSource = .ok s ∧
      s.tokens = before ++ t :: semi :: after ∧ semi.isAutomatic = true ∧
      ∃ file file', closedSource.parse = .ok file ∧
        (closedSource.withSemicolon t.stop).parse = .ok file' ∧ file'.outline ≠ file.outline := by
  have hstream : (TokenStream.ofSource closedSource).toOption.map (fun s => (s.tokens.drop 15).take 2) =
      some [⟨.op (.closing .curly), 36, 37, 5, 2, 5⟩, ⟨.semicolon false, 37, 37, 5, 3, 5⟩] := by
    decide +kernel
  have hkinds : closedSource.parse.toOption.map (·.outline.map Shape.kind) =
      some [.file, .funcDecl, .funcType, .block, .rawStmt, .block, .exprStmt, .call, .ident,
        .rawStmt, .block, .exprStmt, .call, .ident] := by
    decide +kernel
  have hkinds' : (closedSource.withSemicolon 37).parse.toOption.map (·.outline.map Shape.kind) =
      some [.file, .funcDecl, .funcType, .block, .rawStmt, .block, .exprStmt, .call, .ident] := by
    decide +kernel
  obtain ⟨s, hs, htokens⟩ := Option.map_eq_some_iff.1 hstream
  obtain ⟨file, hf, hkinds⟩ := Option.map_eq_some_iff.1 hkinds
  obtain ⟨file', hf', hkinds'⟩ := Option.map_eq_some_iff.1 hkinds'
  refine ⟨s, s.tokens.take 15, ⟨.op (.closing .curly), 36, 37, 5, 2, 5⟩,
    ⟨.semicolon false, 37, 37, 5, 3, 5⟩, s.tokens.drop 17, Except.toOption_eq_some.1 hs, ?_, rfl,
    file, file', Except.toOption_eq_some.1 hf, Except.toOption_eq_some.1 hf', ?_⟩
  · calc s.tokens = s.tokens.take 15 ++ ((s.tokens.drop 15).take 2 ++ (s.tokens.drop 15).drop 2) := by
          rw [List.take_append_drop, List.take_append_drop]
      _ = _ := by rw [htokens, List.drop_drop]; rfl
  · intro h
    rw [h, hkinds] at hkinds'
    exact absurd hkinds' (by decide)

end ParallelTests
