import ParallelTests.Proofs.Types.Table

/-!
Parameters of a predeclared type, and of pointers to it, under the imports of their file. A single
dot import is asked before the predeclared types and answers for every name.
-/

namespace ParallelTests

def ResolvedType.pointers : Nat → ResolvedType → ResolvedType
  | 0, type => type
  | n + 1, type => .pointer (pointers n type)

def Node.Starred (name : String) : Nat → Node → Prop
  | 0, e => e.shape = .ident name
  | n + 1, e => ∃ x, e.shape = .star x ∧ x.Starred name n

namespace Node

def pointee? (e : Node) : Option Node :=
  match e.shape with
  | .star x => some x
  | _ => none

lemma pointee?_eq_some_iff {e x : Node} : e.pointee? = some x ↔ e.shape = .star x := by
  cases h : e.shape <;> simp [pointee?, h]

instance decidableStarred (name : String) : (n : Nat) → (e : Node) → Decidable (e.Starred name n)
  | 0, _ => decidable_of_iff _ ident?_eq_some_iff
  | n + 1, e =>
    match h : e.pointee? with
    | some x =>
      have := decidableStarred name n x
      have he := pointee?_eq_some_iff.1 h
      decidable_of_iff (x.Starred name n)
        ⟨fun hx => ⟨x, he, hx⟩, fun ⟨_, hs, hx⟩ => Shape.star.inj (he.symm.trans hs) ▸ hx⟩
    | none => isFalse fun ⟨_, hs, _⟩ => by simp [pointee?_eq_some_iff.2 hs] at h

lemma Signature.at? {n : Node} {a : Address} {params : List Node} (h : n.Signature a params) :
    ∃ f, n.at? a = some f ∧ f.shape = .funcType params := by
  induction h with
  | here h => exact ⟨_, rfl, h⟩
  | inside _ hc _ ih =>
    obtain ⟨f, hf, hs⟩ := ih
    exact ⟨f, by rw [at?_cons, hc, Option.bind_some, hf], hs⟩

lemma Signature.at?_param {n field e : Node} {a : Address} {params names : List Node} {k : Nat}
    (h : n.Signature a params) (hk : params[k]? = some field) (hs : field.shape = .field names e) :
    n.at? (a ++ [k, names.length]) = some e := by
  obtain ⟨f, hf, hparams⟩ := h.at?
  rw [at?_append, hf, Option.bind_some, at?_cons, children, hparams, Shape.children, hk,
    Option.bind_some, at?_cons, children, hs, Shape.children]
  simp

end Node

namespace Types

variable {package : String} {files : List Node} {file e : Node} {name : String} {n : Nat}
  {type : ResolvedType} {table : TypeTable}

lemma Means.starred (hname : ∀ x : Node, x.shape = .ident name → Means package files file x type)
    (h : e.Starred name n) : Means package files file e (type.pointers n) := by
  induction n generalizing e with
  | zero => exact hname e h
  | succ n ih =>
    obtain ⟨x, he, hx⟩ := h
    exact .pointer he (ih hx)

lemma Sound.typeOf?_starred (ht : Sound package files table)
    (hname : ∀ x : Node, x.shape = .ident name → Means package files file x type)
    (h : e.Starred name n) {p : Place} (hat : At files p file e)
    (hp : (table.typeOf? p).isSome = true) {j : Nat} (hj : j ≤ n) :
    table.typeOf? ⟨p.file, p.address ++ List.replicate j 0⟩ = some (type.pointers (n - j)) := by
  induction j generalizing n e p with
  | zero =>
    obtain ⟨found, hfound⟩ := Option.isSome_iff_exists.1 hp
    obtain ⟨file', e', hat', hmeans⟩ := ht.means p found hfound
    obtain ⟨rfl, rfl⟩ := hat.unique hat'
    rw [List.replicate_zero, List.append_nil, hfound, Means.unique (.starred hname h) hmeans, Nat.sub_zero]
  | succ j ih =>
    obtain ⟨n, rfl⟩ := Nat.exists_eq_add_of_le' (Nat.one_le_of_lt hj)
    obtain ⟨x, he, hx⟩ := h
    have := ih hx (hat.child (by rw [Node.children, he]; rfl)) (ht.pointee p file e x hat he hp)
      (Nat.le_of_succ_le_succ hj)
    rwa [Place.child, List.append_assoc, List.singleton_append, ← List.replicate_succ,
      ← Nat.add_sub_add_right n 1 j] at this

lemma typeOf?_starred (ht : resolveAll package files = .ok table) {i k j : Nat} {a : Address}
    {params names : List Node} {field : Node} (hfile : files[i]? = some file)
    (hsig : file.Signature a params) (hk : params[k]? = some field)
    (hs : field.shape = .field names e) (h : e.Starred name n)
    (hname : ∀ x : Node, x.shape = .ident name → Means package files file x type) (hj : j ≤ n) :
    table.typeOf? ⟨i, a ++ [k, names.length] ++ List.replicate j 0⟩ =
      some (type.pointers (n - j)) := by
  obtain ⟨hsound, htyped⟩ := sound_of_resolveAll ht
  exact hsound.typeOf?_starred hname h (p := ⟨i, a ++ [k, names.length]⟩)
    ⟨hfile, hsig.at?_param hk hs⟩
    (htyped i file a params hfile hsig k field names e _ hk hs (.starred hname h)) hj

/-- Imports under names never capture a predeclared type, and neither do several dot imports: a
parameter of a predeclared type that the package does not declare itself has that type, and what is
under its stars has the pointers to it. A single dot import captures every such name. -/
theorem typeOf?_predeclared (package : String) (files : List Node)
    (hknown : ∀ file ∈ files, file.Known) (name : String) (hp : name ∈ predeclared)
    (hn : ∀ d ∈ definitions files, d.name ≠ name) :
    ∃ table, resolveAll package files = .ok table ∧
      ∀ i file a params k field names e n, files[i]? = some file → file.Signature a params →
        params[k]? = some field → field.shape = .field names e → e.Starred name n →
        ((dotImports file).length ≠ 1 → ∀ j ≤ n,
          table.typeOf? ⟨i, a ++ [k, names.length] ++ List.replicate j 0⟩ =
            some ((ResolvedType.basic name).pointers (n - j))) ∧
        ∀ path, dotImports file = [path] → ∀ j ≤ n,
          table.typeOf? ⟨i, a ++ [k, names.length] ++ List.replicate j 0⟩ =
            some ((ResolvedType.named path name).pointers (n - j)) := by
  obtain ⟨table, ht⟩ := resolveAll_ok hknown package
  refine ⟨table, ht, fun i file a params k field names e n hfile hsig hk hs h =>
    ⟨fun hdots j hj => ?_, fun path hdots j hj => ?_⟩⟩
  · exact typeOf?_starred ht hfile hsig hk hs h (fun x hx => .predeclared hx hn hdots hp) hj
  · exact typeOf?_starred ht hfile hsig hk hs h (fun x hx => .dotImported hx hn hdots) hj

lemma exists_field {decl field : Node} {i k : Nat} (hf : file.kind = .file)
    (hi : file.children[i]? = some decl) (hd : decl.kind = .funcDecl)
    (hk : decl.funcType.params[k]? = some field) (hfield : field.kind = .field) :
    ∃ params e, file.Signature [i, 0] params ∧ params[k]? = some field ∧
      field.shape = .field field.names e := by
  obtain ⟨params, hparams, hk⟩ := Node.params_getElem? hk
  refine ⟨params, ?_⟩
  cases hs : field.shape with
  | field names e =>
    exact ⟨e, (Function.of_children hf hi hd).signature hparams, hk, by rw [Node.names, hs]⟩
  | _ => simp [Node.kind, hs, Shape.kind] at hfield

def dotsSource : Source :=
  .ofString "a_test.go" ("package p\nimport . \"testing\"\nimport . \"fmt\"\nimport \"x/int\"\n" ++
    "func check(n **int) \x7b\n\x7d\n")

set_option maxRecDepth 100000 in
theorem typeOf?_predeclared_dotsSource :
    ∃ file table, dotsSource.parse = .ok file ∧ resolveAll "p" [file] = .ok table ∧
      (dotImports file).length = 2 ∧ Imports file "int" "x/int" ∧
      table.typeOf? ⟨0, [3, 0, 0, 1]⟩ = some (.pointer (.pointer (.basic "int"))) ∧
      table.typeOf? ⟨0, [3, 0, 0, 1, 0, 0]⟩ = some (.basic "int") := by
  have h : ∃ file, dotsSource.parse = .ok file ∧ file.kind = .file ∧
      (dotImports file).length = 2 ∧ (Scope.ofFile file).package? "int" = some "x/int" ∧
      definitions [file] = [] ∧
      (file.children[3]?.bind fun n => n.funcType.params[0]?.map fun f =>
        (n.kind, f.kind, f.names.length)) = some (.funcDecl, .field, 1) ∧
      (file.at? [3, 0, 0, 1]).any (·.Starred "int" 2) :=
    Source.exists_of_parse (by decide +kernel)
  obtain ⟨file, hfile, hkind, hdots, hint, hdefs, hdecl, he⟩ := h
  have hknown : file.Known :=
    Node.known_of_shaped (Source.lies_of_parse (Source.parse_eq_ok_iff.1 hfile)).2.1
  obtain ⟨decl, hdecl, hfield⟩ := Option.bind_eq_some_iff.1 hdecl
  obtain ⟨field, hfield, hkinds⟩ := Option.map_eq_some_iff.1 hfield
  obtain ⟨hfunc, hkind', hlen⟩ := by simpa only [Prod.mk.injEq] using hkinds
  obtain ⟨params, e, hsig, hk, hs⟩ := exists_field hkind hdecl hfunc hfield hkind'
  obtain ⟨x, hx, hstar⟩ := (Option.any_eq_true _ _).1 he
  obtain rfl : x = e := by
    have := hsig.at?_param hk hs
    rw [hlen] at this
    exact Option.some.inj (hx.symm.trans this)
  obtain ⟨table, ht, hparams⟩ := typeOf?_predeclared "p" [file] (by simpa using hknown) "int"
    (by decide) (by simp [hdefs])
  have htype := (hparams 0 file [3, 0] params 0 field _ x 2 rfl hsig hk hs
    (of_decide_eq_true hstar)).1 (by rw [hdots]; decide)
  rw [hlen] at htype
  exact ⟨file, table, hfile, ht, hdots, package?_eq_some_iff.1 hint, htype 0 (by decide),
    htype 2 (by decide)⟩

def dotSource : Source :=
  .ofString "a_test.go" "package p\nimport . \"testing\"\nfunc check(t *T, n *int) \x7b\n\x7d\n"

set_option maxRecDepth 100000 in
/-- One dot import makes a pointer to `int` a pointer to a type of the imported package. -/
theorem typeOf?_ne_basic_dotSource :
    ∃ file table e, dotSource.parse = .ok file ∧ resolveAll "p" [file] = .ok table ∧
      "int" ∈ predeclared ∧ definitions [file] = [] ∧ file.at? [1, 0, 1, 1] = some e ∧
      e.Starred "int" 1 ∧
      table.typeOf? ⟨0, [1, 0, 1, 1]⟩ = some (.pointer (.named "testing" "int")) ∧
      table.typeOf? ⟨0, [1, 0, 1, 1]⟩ ≠ some (.pointer (.basic "int")) := by
  have h : ∃ file, dotSource.parse = .ok file ∧ definitions [file] = [] ∧
      (file.at? [1, 0, 1, 1]).any (·.Starred "int" 1) ∧
      (resolveAll "p" [file]).toOption.bind (·.typeOf? ⟨0, [1, 0, 1, 1]⟩) =
        some (.pointer (.named "testing" "int")) := Source.exists_of_parse (by decide +kernel)
  obtain ⟨file, hfile, hdefs, he, ht⟩ := h
  obtain ⟨e, hat, he⟩ := (Option.any_eq_true _ _).1 he
  obtain ⟨table, htable, ht⟩ := Option.bind_eq_some_iff.1 ht
  exact ⟨file, table, e, hfile, Except.toOption_eq_some.1 htable, by decide, hdefs, hat,
    of_decide_eq_true he, ht, by simp [ht]⟩

end Types

end ParallelTests
