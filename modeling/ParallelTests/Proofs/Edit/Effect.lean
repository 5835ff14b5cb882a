import ParallelTests.Proofs.Edit.Exact
import ParallelTests.Proofs.Edit.Steps
import ParallelTests.Session

/-!
What adding the parallel call does to a declaration: one block gains a first statement and nothing
else changes, or nothing changes at all. The tree may be of any origin, and hold nodes of unknown
kinds.
-/

namespace ParallelTests

def Shape.Typed : Shape → Prop
  | .field names _ => ∀ n ∈ names, n.kind = .ident
  | .funcType params => ∀ n ∈ params, n.kind = .field
  | .funcLit _ type body => type.kind = .funcType ∧ body.kind = .block
  | .rangeStmt _ _ _ _ body => body.kind = .block
  | .funcDecl _ type _ _ body => type.kind = .funcType ∧ ∀ n ∈ body, n.kind = .block
  | _ => True

instance : DecidablePred Shape.Typed := fun s => by
  cases s <;> unfold Shape.Typed <;> infer_instance

inductive Differs (R : Node → Node → Prop) : Address → Node → Node → Prop
  | here {n n' : Node} (h : R n n') : Differs R [] n n'
  | step {n c : Node} {i : Nat} {a : Address} {g : Nat → Node → Node}
      (hi : n.children[i]? = some c) (hg : ∀ j d, j ≠ i → g j d = d) (h : Differs R a c (g i c)) :
      Differs R (i :: a) n (n.mapChildren g)

inductive PutFirst (stmt : Node) : Node → Node → Prop
  | mk {span : Option Span} {layout : Layout} {pieces : Option (List Piece)} {stmts : List Node}
      {oneLine : Bool} {lead : Option String} :
      PutFirst stmt (.mk span layout pieces (.block stmts oneLine lead))
        (.mk span layout pieces (.block (stmt :: stmts) false lead))

structure Gained (stmt : Node) (a : Address) (n n' : Node) : Prop where
  differs : Differs (PutFirst stmt) a n n'
  beside : ∀ q, ¬a <+: q → ¬q <+: a → n'.at? q = n.at? q
  behind : ∀ j q, n'.at? (a ++ (j + 1) :: q) = n.at? (a ++ j :: q)

namespace Node

/-- A tree in which every node has what it asks for right below it. -/
def Typed (n : Node) : Prop := ∀ p ∈ n.preorder [], p.2.shape.Typed

instance : DecidablePred Typed := fun n => inferInstanceAs (Decidable (∀ p ∈ n.preorder [], _))

lemma Typed.at? {n m : Node} {a : Address} (h : n.Typed) (hm : n.at? a = some m) : m.shape.Typed :=
  h (a, m) (mem_preorder.2 ⟨a, rfl, hm⟩)

lemma Typed.kind_of_mem_names {n type field ident : Node} {a : Address} (h : n.Typed)
    (hm : n.at? a = some type) (hf : field ∈ type.params) (hi : ident ∈ field.names) :
    ident.kind = .ident := by
  have hchild : field ∈ type.children := by
    unfold params at hf
    split at hf
    · next hs => rwa [children, hs]
    · cases hf
  obtain ⟨i, hat⟩ := List.mem_iff_getElem?.1 hchild
  have hfield : n.at? (a ++ [i]) = some field := by
    rw [at?_append, hm, Option.bind_some, at?_cons, hat]
    rfl
  have htyped := h.at? hfield
  unfold names at hi
  split at hi
  · next hs =>
    rw [hs] at htyped
    exact htyped ident hi
  · cases hi

lemma children_getElem?_mapChildren (n : Node) (g : Nat → Node → Node) (j : Nat) :
    (n.mapChildren g).children[j]? = n.children[j]?.map (g j) := by
  rw [children_mapChildren, List.getElem?_mapIdx]

lemma differs_modifyAt {R : Node → Node → Prop} {f : Node → Node} {a : Address} {n m : Node}
    (hm : n.at? a = some m) (h : R m (f m)) : Differs R a n (n.modifyAt f a) := by
  induction a generalizing n with
  | nil =>
    obtain rfl := Option.some.inj hm
    exact .here h
  | cons i a ih =>
    obtain ⟨c, hc, hm⟩ := Option.bind_eq_some_iff.1 hm
    refine .step hc (fun j d hj => if_neg hj) ?_
    rw [if_pos rfl]
    exact ih hm

end Node

namespace Differs

variable {R : Node → Node → Prop} {a q : Address} {n n' : Node}

lemma at? (h : Differs R a n n') : ∃ m m', n.at? a = some m ∧ n'.at? a = some m' ∧ R m m' := by
  induction h with
  | here h => exact ⟨_, _, rfl, rfl, h⟩
  | step hi _ _ ih =>
    obtain ⟨m, m', hm, hm', hr⟩ := ih
    refine ⟨m, m', by rw [Node.at?_cons, hi, Option.bind_some, hm], ?_, hr⟩
    rw [Node.at?_cons, Node.children_getElem?_mapChildren, hi, Option.map_some, Option.bind_some, hm']

lemma at?_beside (h : Differs R a n n') (ha : ¬a <+: q) (hq : ¬q <+: a) : n'.at? q = n.at? q := by
  induction h generalizing q with
  | here => exact absurd (List.nil_prefix ..) ha
  | @step n c i a g hi hg _ ih =>
    cases q with
    | nil => exact absurd (List.nil_prefix ..) hq
    | cons j q =>
      rw [Node.at?_cons, Node.at?_cons, Node.children_getElem?_mapChildren]
      by_cases hj : j = i
      · subst hj
        rw [List.cons_prefix_cons] at ha hq
        rw [hi, Option.map_some, Option.bind_some, Option.bind_some]
        exact ih (fun h => ha ⟨rfl, h⟩) (fun h => hq ⟨rfl, h⟩)
      · have hg : g j = id := funext fun d => hg j d hj
        rw [hg, Option.map_id_fun, id]

end Differs

lemma PutFirst.at?_succ {stmt n n' : Node} (h : PutFirst stmt n n') (j : Nat) (q : Address) :
    n'.at? ((j + 1) :: q) = n.at? (j :: q) := by
  cases h
  rfl

lemma Differs.gained {stmt n n' : Node} {a : Address} (h : Differs (PutFirst stmt) a n n') :
    Gained stmt a n n' := by
  refine ⟨h, fun q => h.at?_beside, fun j q => ?_⟩
  obtain ⟨m, m', hm, hm', hr⟩ := h.at?
  rw [Node.at?_append, Node.at?_append, hm, hm', Option.bind_some, Option.bind_some]
  exact hr.at?_succ j q

lemma putFirst_prepend {stmt block : Node} (h : block.kind = .block) :
    PutFirst stmt block (.prepend stmt block) := by
  obtain ⟨span, layout, pieces, shape⟩ := block
  cases shape with
  | block => exact .mk
  | _ => cases h

lemma gained_modifyAt {stmt n block : Node} {a : Address} (ha : n.at? a = some block)
    (hk : block.kind = .block) : Gained stmt a n (n.modifyAt (.prepend stmt) a) :=
  (Node.differs_modifyAt ha (putFirst_prepend hk)).gained

namespace Node

variable {handle method : String}

lemma not_calls_of_findSubtest {at_ : Address} {body : Node}
    (h : body.findSubtest handle method at_ = .ok none) :
    ∀ p ∈ body.preorder [], ¬body.Calls handle method p := by
  obtain ⟨r, hr, hnone⟩ := Except.map_eq_ok_iff.1 h
  have hf := (finds_of_walk hr (by simp [Search.Clean])).found
  rw [hnone] at hf
  have hfirst : body.firstSubtest handle method = none := by simpa using hf.symm
  rw [firstSubtest, List.find?_eq_none] at hfirst
  exact fun p hp hcalls => hfirst p hp (calls_iff.1 hcalls)

lemma le_foldl_add (f : Node → Nat) (ps : List Node) (k : Nat) :
    k ≤ ps.foldl (fun n p => n + f p) k := by
  induction ps generalizing k with
  | nil => exact Nat.le_refl k
  | cons p ps ih => exact (Nat.le_add_right k (f p)).trans (ih (k + f p))

lemma paramCount_eq_one_iff {type : Node} :
    type.paramCount = 1 ↔ ∃ field, type.params = [field] ∧ field.names.length ≤ 1 := by
  rw [paramCount]
  rcases type.params with _ | ⟨field, _ | ⟨field', rest⟩⟩
  · simp
  · simp only [List.foldl_cons, List.foldl_nil, List.cons.injEq, and_true, exists_eq_left']
    omega
  · have hle := le_foldl_add (fun p => max p.names.length 1) rest
      (0 + max field.names.length 1 + max field'.names.length 1)
    simp only [List.foldl_cons, List.cons.injEq, reduceCtorEq, and_false, false_and, exists_false,
      iff_false]
    omega

end Node

structure Handled (type : Node) (handle : String) : Prop where
  param : ∃ field ident, type.params = [field] ∧ field.names = [ident] ∧ ident.shape = .ident handle
  named : handle ≠ "_"

lemma handled_of_single {type : Node} {inner : String}
    (ht : ∀ f ∈ type.params, ∀ n ∈ f.names, n.kind = .ident) (hs : type.paramCount = 1)
    (hn : type.params.head?.bind (Node.usableName ·.names) = some inner) :
    Handled type inner := by
  obtain ⟨field, hfield, hle⟩ := Node.paramCount_eq_one_iff.1 hs
  rw [hfield] at hn ht
  have hident := ht field (by simp)
  change Node.usableName field.names = some inner at hn
  rcases hnames : field.names with _ | ⟨ident, _ | ⟨second, rest⟩⟩
  · rw [hnames] at hn
    cases hn
  · rw [hnames] at hn hident
    obtain ⟨span, layout, pieces, shape⟩ := ident
    have hkind : shape.kind = .ident := hident (.mk span layout pieces shape) (by simp)
    cases shape with
    | ident name =>
      rw [Node.usableName, Option.ite_none_left_eq_some] at hn
      obtain ⟨hblank, hname⟩ := hn
      obtain rfl : name = inner := Option.some.inj hname
      refine ⟨⟨field, _, hfield, hnames, rfl⟩, ?_⟩
      rintro rfl
      exact hblank rfl
    | _ => cases hkind
  · simp [hnames] at hle

namespace Edit

/-- What adding the parallel call does to a declaration, by what comes of it: the declaration as it is
left. -/
inductive Effect (c : Config) (decl : Node) : Option String → Except Breach Plan → Node → Prop
  | lost {handle : Option String} {breach : Breach} : Effect c decl handle (.error breach) decl
  | aborted {handle : Option String} {reason : Abort} {message : String}
      (hm : (Plan.abort reason).messages c handle = [message]) :
      Effect c decl handle (.ok (.abort reason)) decl
  | simple {handle : String} {body state : Node} (hb : decl.body? = some body)
      (hn : ∀ p ∈ body.preorder [], ¬body.Calls handle c.runMethod p)
      (hg : Gained (.parallelCall handle c.parallelMethod) [1] decl state) :
      Effect c decl (some handle) (.ok (.simple handle)) state
  | subtest {handle inner signature : String} {a : Address}
      {stmt call callee name closure type block state : Node} (ha : decl.at? a = some stmt)
      (hc : Node.IsSubtest handle c.runMethod stmt call)
      (hs : call.shape = .call callee [name, closure] false)
      (hl : closure.shape = .funcLit signature type block) (hh : Handled type inner)
      (hb : decl.at? (a ++ [0, 2, 1]) = some block)
      (hg : Gained (.parallelCall inner c.parallelMethod) (a ++ [0, 2, 1]) decl state) :
      Effect c decl (some handle) (.ok (.subtest a inner)) state

variable {c : Config} {decl : Node} {handle : Option String}

lemma effect_simple {name : String} (ht : decl.Typed)
    (hp : Plan.of c decl handle = .ok (.simple name)) :
    Effect c decl handle (.ok (.simple name)) (Plan.apply c decl (.simple name)) := by
  obtain ⟨body, hb, rfl, hf⟩ := Plan.of_simple hp
  have hkind : body.kind = .block := by
    obtain ⟨span, layout, pieces, shape⟩ := decl
    cases shape with
    | funcDecl => exact (ht.at? (a := []) rfl).2 body hb
    | _ => cases hb
  exact .simple hb (Node.not_calls_of_findSubtest hf) (gained_modifyAt (Node.at?_of_body? hb) hkind)

lemma effect_subtest {a : Address} {inner : String} (ht : decl.Typed)
    (hp : Plan.of c decl handle = .ok (.subtest a inner)) :
    Effect c decl handle (.ok (.subtest a inner)) (Plan.apply c decl (.subtest a inner)) := by
  obtain ⟨body, name, rel, hb, rfl, rfl, ⟨found⟩⟩ := Plan.of_subtest hp
  have hstmt : decl.at? (1 :: rel) = some found.stmt := by
    rw [← List.singleton_append, Node.at?_append, Node.at?_of_body? hb, Option.bind_some,
      found.clear.at?]
  have hbelow (q : Address) : decl.at? (1 :: rel ++ q) = found.stmt.at? q := by
    rw [Node.at?_append, hstmt, Option.bind_some]
  have hclosure : decl.at? (1 :: rel ++ [0, 2]) = some found.closure := by
    rw [hbelow]
    simp [Node.children, found.stmt_shape, found.call_shape, Shape.children]
  have hblock : decl.at? (1 :: rel ++ [0, 2, 1]) = some found.block := by
    rw [hbelow]
    simp [Node.children, found.stmt_shape, found.call_shape, found.closure_shape, Shape.children]
  have htype : decl.at? (1 :: rel ++ [0, 2, 0]) = some found.type := by
    rw [hbelow]
    simp [Node.children, found.stmt_shape, found.call_shape, found.closure_shape, Shape.children]
  have hkinds := ht.at? hclosure
  rw [found.closure_shape] at hkinds
  have hcall : Node.IsSubtest name c.runMethod found.stmt found.call :=
    ⟨found.stmt_shape, _, _, _, _, _, found.call_shape, found.callee_shape,
      Node.ident?_eq_some_iff.1 found.receiver, Node.ident?_eq_some_iff.1 found.selected⟩
  refine .subtest hstmt hcall found.call_shape found.closure_shape ?_ hblock
    (gained_modifyAt hblock hkinds.2)
  exact handled_of_single (fun _ hf _ hn => ht.kind_of_mem_names htype hf hn) found.single found.named

/-- Adding the parallel call changes a declaration as a whole or not at all. Where it fails, or gives
up with a message, every node is as before. -/
theorem effect_parallelize (c : Config) (log : Log.Logger) (decl : Node) (handle : Option String)
    (ht : decl.Typed) :
    Effect c decl handle (parallelize c log decl handle).result
      (parallelize c log decl handle).state := by
  unfold parallelize
  dsimp only
  cases hp : Plan.of c decl handle with
  | error breach => exact .lost
  | ok plan =>
    cases plan with
    | abort reason => exact .aborted rfl
    | simple h => exact effect_simple ht hp
    | subtest a inner => exact effect_subtest ht hp

set_option maxRecDepth 100000 in
theorem effect_parallelize_nestedSource :
    ∃ file types decl state, (nestedSource "x()").parse = .ok file ∧
      Types.resolveAll "p" [file] = .ok types ∧ file.children[1]? = some decl ∧
      (Session.spoil decl).Typed ∧
      (parallelize {} {} (Session.spoil decl) (some "t")).state = state ∧
      Effect {} (Session.spoil decl) (some "t") (.ok (.subtest [1, 0, 0, 1] "t")) state := by
  have h : ∃ file types decl, (nestedSource "x()").parse = .ok file ∧
      Types.resolveAll "p" [file] = .ok types ∧ file.children[1]? = some decl ∧
      (Session.spoil decl).Typed ∧
      (parallelize {} {} (Session.spoil decl) (some "t")).result.toOption =
        some (.subtest [1, 0, 0, 1] "t") := Source.exists_of_decl? (by decide +kernel)
  obtain ⟨file, types, decl, hfile, htypes, hdecl, htyped, hresult⟩ := h
  have heffect := effect_parallelize {} {} (Session.spoil decl) (some "t") htyped
  rw [Except.toOption_eq_some.1 hresult] at heffect
  exact ⟨file, types, decl, _, hfile, htypes, hdecl, htyped, rfl, heffect⟩

end Edit

end ParallelTests
