import ParallelTests.Proofs.Edit.Search
import ParallelTests.Proofs.Parse.File
import ParallelTests.Proofs.Print.Tokens
import ParallelTests.Proofs.Types.Resolve
import ParallelTests.TestFunction.Classification

/-!
The table of a package: the parameters of its functions have the types that they mean, whatever
else has been recorded before.
-/

namespace ParallelTests

/-- The function types in a tree that no function type contains, by address. -/
inductive Node.Signature : Node → Address → List Node → Prop
  | here {n : Node} {params : List Node} (h : n.shape = .funcType params) : Signature n [] params
  | inside {n c : Node} {i : Nat} {a : Address} {params : List Node} (hn : n.kind ≠ .funcType)
      (hc : n.children[i]? = some c) (h : Signature c a params) : Signature n (i :: a) params

lemma Node.params_getElem? {type field : Node} {k : Nat} (h : type.params[k]? = some field) :
    ∃ params, type.shape = .funcType params ∧ params[k]? = some field := by
  unfold params at h
  split at h
  · next params hparams => exact ⟨params, hparams, h⟩
  · simp at h

namespace Types

variable {package : String} {files : List Node} {index : Nat} {file : Node} {a : Address}
  {table table' : TypeTable}

lemma Grows.trans {table'' : TypeTable} (h : Grows table table') (h' : Grows table' table'') :
    Grows table table'' :=
  fun p hp => h' p (h p hp)

def Typed (package : String) (files : List Node) (file : Node) (index : Nat) (table : TypeTable)
    (a : Address) (params : List Node) : Prop :=
  ∀ k field names e type, params[k]? = some field → field.shape = .field names e →
    Means package files file e type → (table.typeOf? ⟨index, a ++ [k, names.length]⟩).isSome = true

lemma Typed.grows {params : List Node} (h : Typed package files file index table a params)
    (hg : Grows table table') : Typed package files file index table' a params :=
  fun k field names e type hk hs hm => hg _ (h k field names e type hk hs hm)

def resolveParam (package : String) (local_ : List Declared) (scope : Scope) (index : Nat)
    (a : Address) (table : TypeTable) (param : Node × Nat) : TypeTable :=
  match param.1.shape with
  | .field names type =>
    (resolve package local_ scope [] ⟨index, a ++ [param.2, names.length]⟩ type table).2
  | _ => table

def visitTypes (package : String) (local_ : List Declared) (scope : Scope) (index : Nat)
    (a : Address) (n : Node) (table : TypeTable) : Verdict × TypeTable :=
  match n.shape with
  | .funcType params =>
    (.skip, params.zipIdx.foldl (resolveParam package local_ scope index a) table)
  | _ => (.enter, table)

lemma resolveFile_eq (package : String) (local_ : List Declared) (index : Nat) (file : Node)
    (table : TypeTable) : resolveFile package local_ index file table =
      (file.walk (visitTypes package local_ (.ofFile file) index) [] table).map (·.2) := rfl

structure Filled (package : String) (files : List Node) (file : Node) (index : Nat) (a : Address)
    (n : Node) (table : TypeTable) (r : Bool × TypeTable) : Prop where
  going : r.1 = true
  grows : Grows table r.2
  kept : At files ⟨index, a⟩ file n → Sound package files table → Sound package files r.2
  typed : ∀ rel params, n.Signature rel params →
    Typed package files file index r.2 (a ++ rel) params

section Step

variable {n param : Node} {i : Nat}

lemma grows_resolveParam : Grows table
    (resolveParam package (declared files) (.ofFile file) index a table (param, i)) := by
  unfold resolveParam
  split
  · exact (resolved_resolve package files file [] _ _ table).grows
  · exact fun _ => id

lemma kept_resolveParam (hat : At files ⟨index, a ++ [i]⟩ file param)
    (ht : Sound package files table) : Sound package files
      (resolveParam package (declared files) (.ofFile file) index a table (param, i)) := by
  unfold resolveParam
  split
  · next names e hs =>
    refine (resolved_resolve package files file [] _ e table).kept ?_ ht
    simpa [Place.child] using hat.child (c := e) (i := names.length)
      (by simp [Node.children, hs, Shape.children])
  · exact ht

lemma isSome_resolveParam {names : List Node} {e : Node} {type : ResolvedType}
    (hs : param.shape = .field names e) (hm : Means package files file e type) :
    ((resolveParam package (declared files) (.ofFile file) index a table (param, i)).typeOf?
      ⟨index, a ++ [i, names.length]⟩).isSome = true := by
  have hr := resolved_resolve package files file [] ⟨index, a ++ [i, names.length]⟩ e table
  rcases hr.complete type hm with hsome | ⟨name, hname, -⟩
  · rw [resolveParam, hs]
    exact hr.recorded (by rw [hsome]; rfl)
  · simp at hname

end Step

lemma foldl_resolveParam {params : List Node} {i : Nat} {r : TypeTable}
    (hr : (params.zipIdx i).foldl
      (resolveParam package (declared files) (.ofFile file) index a) table = r) :
    Grows table r ∧
      ((∀ k param, params[k]? = some param → At files ⟨index, a ++ [i + k]⟩ file param) →
        Sound package files table → Sound package files r) ∧
      ∀ k field names e type, params[k]? = some field → field.shape = .field names e →
        Means package files file e type →
          (r.typeOf? ⟨index, a ++ [i + k, names.length]⟩).isSome = true := by
  induction params generalizing i table with
  | nil =>
    subst hr
    exact ⟨fun _ => id, fun _ => id, by simp⟩
  | cons param params ih =>
    rw [List.zipIdx_cons, List.foldl_cons] at hr
    obtain ⟨hgrows, hkept, htyped⟩ := ih hr
    refine ⟨grows_resolveParam.trans hgrows, fun hat ht => ?_, fun k field names e type hk hs hm => ?_⟩
    · refine hkept (fun k param' hk => ?_) (kept_resolveParam (hat 0 param rfl) ht)
      rw [Nat.add_right_comm]
      exact hat (k + 1) param' hk
    · cases k with
      | zero =>
        obtain rfl := Option.some.inj hk
        exact hgrows _ (isSome_resolveParam hs hm)
      | succ k =>
        rw [← Nat.succ_add_eq_add_succ]
        exact htyped k field names e type hk hs hm

lemma filled_of_chain {i : Nat} {cs : List Node} {r : Bool × TypeTable}
    (h : Node.Chain (Filled package files file index) a i cs table r) :
    r.1 = true ∧ Grows table r.2 ∧
      ((∀ j c, cs[j]? = some c → At files ⟨index, a ++ [i + j]⟩ file c) →
        Sound package files table → Sound package files r.2) ∧
      ∀ j c rel params, cs[j]? = some c → c.Signature rel params →
        Typed package files file index r.2 (a ++ (i + j) :: rel) params := by
  induction h with
  | nil => exact ⟨rfl, fun _ => id, fun _ => id, by simp⟩
  | halt h => cases h.going
  | next h _ ih =>
    obtain ⟨hgoing, hgrows, hkept, htyped⟩ := ih
    refine ⟨hgoing, h.grows.trans hgrows, fun hat ht => ?_, fun j c rel params hj hs => ?_⟩
    · refine hkept (fun j c hj => ?_) (h.kept (hat 0 _ rfl) ht)
      rw [Nat.add_right_comm]
      exact hat (j + 1) c hj
    · cases j with
      | zero =>
        obtain rfl := Option.some.inj hj
        have := (h.typed rel params hs).grows hgrows
        rwa [List.append_assoc, List.singleton_append] at this
      | succ j =>
        rw [← Nat.succ_add_eq_add_succ]
        exact htyped j c rel params hj hs

lemma filled_of_walk {n : Node} {r : Bool × TypeTable}
    (h : n.walk (visitTypes package (declared files) (.ofFile file) index) a table = .ok r) :
    Filled package files file index a n table r := by
  refine Node.walk_induct (M := Filled package files file index) ?_ ?_ ?_ h
  · intro a n table table' hv
    unfold visitTypes at hv
    split at hv <;> cases hv
  · intro a n table table' hv
    unfold visitTypes at hv
    split at hv
    · next params hs =>
      obtain ⟨hgrows, hkept, htyped⟩ := foldl_resolveParam (Prod.mk.inj hv).2
      refine ⟨rfl, hgrows, fun hat => hkept fun k param hk => ?_, fun rel params' hsig => ?_⟩
      · rw [Nat.zero_add]
        exact hat.child (by rwa [Node.children, hs])
      · cases hsig with
        | here hs' =>
          obtain rfl := Shape.funcType.inj (hs.symm.trans hs')
          simpa only [Typed, List.append_nil, Nat.zero_add] using htyped
        | inside hn => exact absurd (by rw [Node.kind, hs]; rfl) hn
    · cases hv
  · intro a n table table' r hv hc
    unfold visitTypes at hv
    split at hv
    · cases hv
    · next hs =>
      obtain rfl := (Prod.mk.inj hv).2
      obtain ⟨hgoing, hgrows, hkept, htyped⟩ := filled_of_chain hc
      refine ⟨hgoing, hgrows, fun hat => hkept fun j c hj => ?_, fun rel params hsig => ?_⟩
      · rw [Nat.zero_add]
        exact hat.child hj
      · cases hsig with
        | here hs' => exact absurd hs' (hs params)
        | inside _ hj hsig =>
          have := htyped _ _ _ _ hj hsig
          rwa [Nat.zero_add] at this

lemma filled_of_resolveFile (h : resolveFile package (declared files) index file table = .ok table') :
    Filled package files file index [] file table (true, table') := by
  rw [resolveFile_eq] at h
  obtain ⟨⟨going, _⟩, hw, rfl⟩ := Except.map_eq_ok_iff.1 h
  have hf := filled_of_walk hw
  obtain rfl : going = true := hf.going
  exact hf

lemma filled_of_files {fs : List Node} {i : Nat}
    (h : (fs.zipIdx i).foldlM (fun table (p : Node × Nat) =>
      resolveFile package (declared files) p.2 p.1 table) table = .ok table') :
    Grows table table' ∧
      ((∀ j file, fs[j]? = some file → files[i + j]? = some file) →
        Sound package files table → Sound package files table') ∧
      ∀ j file rel params, fs[j]? = some file → file.Signature rel params →
        Typed package files file (i + j) table' rel params := by
  induction fs generalizing i table with
  | nil =>
    obtain rfl := Except.pure_eq_ok_iff.1 h
    exact ⟨fun _ => id, fun _ => id, by simp⟩
  | cons file fs ih =>
    rw [List.zipIdx_cons, List.foldlM_cons] at h
    obtain ⟨mid, hmid, h⟩ := Except.bind_eq_ok_iff.1 h
    have hf := filled_of_resolveFile hmid
    obtain ⟨hgrows, hkept, htyped⟩ := ih h
    refine ⟨hf.grows.trans hgrows, fun hfiles ht => ?_, fun j f rel params hj hsig => ?_⟩
    · refine hkept (fun j f hj => ?_) (hf.kept ⟨hfiles 0 file rfl, rfl⟩ ht)
      rw [Nat.add_right_comm]
      exact hfiles (j + 1) f hj
    · cases j with
      | zero =>
        obtain rfl := Option.some.inj hj
        exact (hf.typed rel params hsig).grows hgrows
      | succ j =>
        rw [← Nat.succ_add_eq_add_succ]
        exact htyped j f rel params hj hsig

lemma sound_empty : Sound package files {} := ⟨nofun, nofun⟩

lemma sound_of_resolveAll (h : resolveAll package files = .ok table) :
    Sound package files table ∧ ∀ i file rel params, files[i]? = some file →
      file.Signature rel params → Typed package files file i table rel params := by
  obtain ⟨-, hkept, htyped⟩ := filled_of_files (i := 0) h
  simp only [Nat.zero_add] at hkept htyped
  exact ⟨hkept (fun _ _ => id) sound_empty, htyped⟩

lemma resolveFile_ok (hk : file.Known) (package : String) (local_ : List Declared) (index : Nat)
    (table : TypeTable) : ∃ r, resolveFile package local_ index file table = .ok r := by
  obtain ⟨r, hr⟩ : ∃ r, file.walk (visitTypes package local_ (.ofFile file) index) [] table = .ok r :=
    hk.walk_ok [] table
  exact ⟨r.2, by rw [resolveFile_eq, hr]; rfl⟩

lemma resolveAll_ok (h : ∀ file ∈ files, file.Known) (package : String) :
    ∃ table, resolveAll package files = .ok table := by
  have hall (local_ : List Declared) (i : Nat) (table : TypeTable) :
      ∃ r, (files.zipIdx i).foldlM (fun table (p : Node × Nat) =>
        resolveFile package local_ p.2 p.1 table) table = .ok r := by
    induction files generalizing i table with
    | nil => exact ⟨table, rfl⟩
    | cons file files ih =>
      obtain ⟨mid, hmid⟩ := resolveFile_ok (h file (by simp)) package local_ i table
      obtain ⟨r, hr⟩ := ih (fun f hf => h f (by simp [hf])) (i + 1) mid
      exact ⟨r, by rw [List.zipIdx_cons, List.foldlM_cons, hmid]; exact hr⟩
  exact hall (declared files) 0 {}

lemma resolve_eq_some_iff (place : Place) (e : Node) (table : TypeTable) (type : ResolvedType) :
    (resolve package (declared files) (.ofFile file) [] place e table).1 = some type ↔
      Means package files file e type := by
  have hr := resolved_resolve package files file [] place e table
  refine ⟨hr.sound type, fun hm => ?_⟩
  rcases hr.complete type hm with h | ⟨name, hname, -⟩
  · exact h
  · simp at hname

lemma Means.unique {e : Node} {type type' : ResolvedType} (h : Means package files file e type)
    (h' : Means package files file e type') : type' = type := by
  have hr := (resolve_eq_some_iff ⟨0, []⟩ e {} type).2 h
  rw [(resolve_eq_some_iff ⟨0, []⟩ e {} type').2 h'] at hr
  exact Option.some.inj hr

lemma not_means_of_circle {p q : Node × Node} (hp : Relation.ReflTransGen (Rests files) p q)
    (hq : Relation.TransGen (Rests files) q q) (type : ResolvedType) :
    ¬Means package files p.1 p.2 type := by
  intro hm
  refine not_transGen_of_acc ?_ hq
  clear hq
  induction hp with
  | refl => exact hm.acc
  | tail _ hstep ih => exact ih.inv hstep

/-- The functions of a file, by address, with their types: the declarations, and the literals that
are not inside a parameter list. -/
inductive Function (file : Node) : Address → Node → Prop
  | decl {i : Nat} {n name type : Node} {signature : String} {recv : Option String}
      {body : Option Node} (hf : file.kind = .file) (hi : file.children[i]? = some n)
      (hn : n.shape = .funcDecl name type signature recv body) : Function file [i] type
  | lit {a : Address} {n type body : Node} {signature : String} (hn : file.at? a = some n)
      (hs : n.shape = .funcLit signature type body)
      (ho : ∀ p m, p <+: a → file.at? p = some m → m.kind ≠ .funcType) : Function file a type

lemma signature_of_at? {n f : Node} {params : List Node} (hf : n.at? a = some f)
    (hs : f.shape = .funcType params)
    (ho : ∀ p m, p <+: a → p ≠ a → n.at? p = some m → m.kind ≠ .funcType) :
    n.Signature a params := by
  induction a generalizing n with
  | nil =>
    obtain rfl := Option.some.inj hf
    exact .here hs
  | cons i a ih =>
    obtain ⟨c, hc, hf⟩ := Option.bind_eq_some_iff.1 hf
    refine .inside (ho [] n (List.nil_prefix ..) (by simp) rfl) hc (ih hf fun p m hp hne hm => ?_)
    refine ho (i :: p) m (List.cons_prefix_cons.2 ⟨rfl, hp⟩) (by simpa using hne) ?_
    rw [Node.at?_cons, hc, Option.bind_some, hm]

namespace Function

lemma at? {type : Node} (h : Function file a type) : file.at? (a ++ [0]) = some type := by
  cases h with
  | decl _ hi hn =>
    rw [List.singleton_append, Node.at?_cons, hi, Option.bind_some, Node.at?_cons, Node.children, hn]
    rfl
  | lit hn hs =>
    rw [Node.at?_append, hn, Option.bind_some, Node.at?_cons, Node.children, hs]
    rfl

lemma not_funcType {type : Node} (h : Function file a type) {p : Address} {m : Node} (hp : p <+: a)
    (hm : file.at? p = some m) : m.kind ≠ .funcType := by
  cases h with
  | lit _ _ ho => exact ho p m hp hm
  | @decl i n _ _ _ _ _ hf hi hn =>
    rcases List.prefix_cons_iff.1 hp with rfl | ⟨q, rfl, hq⟩
    · obtain rfl := Option.some.inj hm
      simp [hf]
    · obtain rfl := List.prefix_nil.1 hq
      rw [Node.at?_cons, hi] at hm
      obtain rfl := Option.some.inj hm
      simp [Node.kind, hn, Shape.kind]

lemma signature {type : Node} {params : List Node} (h : Function file a type)
    (hs : type.shape = .funcType params) : file.Signature (a ++ [0]) params := by
  refine signature_of_at? h.at? hs fun p m hp hne hm => h.not_funcType ?_ hm
  rcases List.prefix_concat_iff.1 hp with rfl | hp
  · exact absurd rfl hne
  · exact hp

end Function

lemma Function.at?_param {type field e : Node} {names : List Node} {k : Nat}
    (h : Function file a type) (hk : type.params[k]? = some field)
    (hs : field.shape = .field names e) : file.at? (a ++ [0, k, names.length]) = some e := by
  obtain ⟨params, hparams, hk⟩ := Node.params_getElem? hk
  have htype : file.at? (a ++ [0] ++ [k, names.length]) = some e := by
    rw [Node.at?_append, h.at?, Option.bind_some, Node.at?_cons, Node.children, hparams,
      Shape.children, hk, Option.bind_some, Node.at?_cons, Node.children, hs, Shape.children]
    simp
  rwa [List.append_assoc, List.singleton_append] at htype

lemma typeOf?_param_iff {type field e : Node} {names : List Node} {k i : Nat} {t : ResolvedType}
    (ht : resolveAll package files = .ok table) (hfile : files[i]? = some file)
    (hf : Function file a type) (hk : type.params[k]? = some field)
    (hs : field.shape = .field names e) :
    table.typeOf? ⟨i, a ++ [0, k, names.length]⟩ = some t ↔ Means package files file e t := by
  obtain ⟨hsound, htyped⟩ := sound_of_resolveAll ht
  have hat : At files ⟨i, a ++ [0, k, names.length]⟩ file e := ⟨hfile, hf.at?_param hk hs⟩
  have hmeans {t : ResolvedType} (h : table.typeOf? ⟨i, a ++ [0, k, names.length]⟩ = some t) :
      Means package files file e t := by
    obtain ⟨file', e', hat', hm⟩ := hsound.means _ t h
    obtain ⟨rfl, rfl⟩ := hat.unique hat'
    exact hm
  refine ⟨hmeans, fun hm => ?_⟩
  obtain ⟨params, hparams, hk⟩ := Node.params_getElem? hk
  have hsome := htyped i file (a ++ [0]) params hfile (hf.signature hparams) k field names e t hk hs hm
  rw [List.append_assoc, List.singleton_append] at hsome
  obtain ⟨t', ht'⟩ := Option.isSome_iff_exists.1 hsome
  rw [ht', hm.unique (hmeans ht')]

/-- The types of parameters are those that their expressions mean, aliases of pointers and circles of
aliases included. -/
theorem typeOf?_iff_means (package : String) (files : List Node) :
    (∀ file place e table type,
      (resolve package (declared files) (.ofFile file) [] place e table).1 = some type ↔
        Means package files file e type) ∧
    (∀ p q, Relation.ReflTransGen (Rests files) p q → Relation.TransGen (Rests files) q q →
      ∀ place table, (resolve package (declared files) (.ofFile p.1) [] place p.2 table).1 = none) ∧
    ((∀ file ∈ files, file.Known) → ∃ table, resolveAll package files = .ok table) ∧
    ∀ table, resolveAll package files = .ok table → ∀ i file a type k field names e,
      files[i]? = some file → Function file a type → type.params[k]? = some field →
      field.shape = .field names e → file.at? (a ++ [0, k, names.length]) = some e ∧
        ∀ t, table.typeOf? ⟨i, a ++ [0, k, names.length]⟩ = some t ↔ Means package files file e t := by
  refine ⟨fun file => resolve_eq_some_iff, fun p q hp hq place table => ?_,
    fun h => resolveAll_ok h package, fun table ht i file a type k field names e hfile hf hk hs =>
      ⟨hf.at?_param hk hs, fun t => typeOf?_param_iff ht hfile hf hk hs⟩⟩
  rw [Option.eq_none_iff_forall_ne_some]
  exact fun type h => not_means_of_circle hp hq type ((resolve_eq_some_iff place p.2 table type).1 h)

lemma Function.of_children {n : Node} {i : Nat} (hf : file.kind = .file)
    (hi : file.children[i]? = some n) (hn : n.kind = .funcDecl) : Function file [i] n.funcType := by
  cases h : n.shape with
  | funcDecl =>
    rw [Node.funcType, h]
    exact .decl hf hi h
  | _ => simp [Node.kind, h, Shape.kind] at hn

def aliasSource : Source :=
  .ofString "a_test.go" ("package p\nimport tt \"testing\"\ntype A = B\ntype B = A\n" ++
    "type H = *tt.T\nfunc TestA(t H, x A) \x7b\n\x7d\n")

set_option maxRecDepth 100000 in
theorem typeOf?_iff_means_aliasSource :
    ∃ file table e e', aliasSource.parse = .ok file ∧ file.Known ∧
      resolveAll "p" [file] = .ok table ∧ file.at? [4, 0, 0, 1] = some e ∧
      Means "p" [file] file e (.pointer (.named "testing" "T")) ∧
      file.at? [4, 0, 1, 1] = some e' ∧ (∀ t, ¬Means "p" [file] file e' t) ∧
      (resolve "p" (declared [file]) (.ofFile file) [] ⟨0, [4, 0, 1, 1]⟩ e' table).1 = none := by
  have h : ∃ file, aliasSource.parse = .ok file ∧ file.kind = .file ∧
      (resolveAll "p" [file]).toOption.bind (·.typeOf? ⟨0, [4, 0, 0, 1]⟩) =
        some (.pointer (.named "testing" "T")) ∧
      (file.children[4]?.bind fun n => n.funcType.params[0]?.map fun f =>
        (n.kind, f.kind, f.names.length)) = some (.funcDecl, .field, 1) ∧
      (file.at? [4, 0, 1, 1]).bind Node.ident? = some "A" ∧
      ((definitions [file]).reverse.find? (·.name = "A")).map (fun d => (d.isAlias, d.type.ident?)) =
        some (true, some "B") ∧
      ((definitions [file]).reverse.find? (·.name = "B")).map (fun d => (d.isAlias, d.type.ident?)) =
        some (true, some "A") := Source.exists_of_parse (by decide +kernel)
  obtain ⟨file, hfile, hkind, ht, hdecl, hx, hA, hB⟩ := h
  have hknown : file.Known :=
    Node.known_of_shaped (Source.lies_of_parse (Source.parse_eq_ok_iff.1 hfile)).2.1
  obtain ⟨hresolve, hcircle, -, hparam⟩ := typeOf?_iff_means "p" [file]
  obtain ⟨table, htable, htype⟩ := Option.bind_eq_some_iff.1 ht
  have htable := Except.toOption_eq_some.1 htable
  obtain ⟨n, hn, hdecl⟩ := Option.bind_eq_some_iff.1 hdecl
  obtain ⟨field, hfield, hkinds⟩ := Option.map_eq_some_iff.1 hdecl
  simp only [Prod.mk.injEq] at hkinds
  obtain ⟨hdecl, hf, hlen⟩ := hkinds
  obtain ⟨names, e, hs⟩ : ∃ names e, field.shape = .field names e := by
    cases h : field.shape with
    | field names e => exact ⟨names, e, rfl⟩
    | _ => simp [Node.kind, h, Shape.kind] at hf
  rw [Node.names, hs] at hlen
  obtain ⟨he, hmeans⟩ := hparam table htable 0 file [4] _ 0 field names e rfl
    (.of_children hkind hn hdecl) hfield hs
  rw [hlen] at he hmeans
  obtain ⟨e', he', hx⟩ := Option.bind_eq_some_iff.1 hx
  obtain ⟨a, ha, hA⟩ := Option.map_eq_some_iff.1 hA
  obtain ⟨b, hb, hB⟩ := Option.map_eq_some_iff.1 hB
  simp only [Prod.mk.injEq, Node.ident?_eq_some_iff] at hA hB hx
  have hab : Rests [file] (a.file, a.type) (b.file, b.type) := .aliased hA.2 (defines_iff.2 hb) hB.1
  have hba : Rests [file] (b.file, b.type) (a.file, a.type) := .aliased hB.2 (defines_iff.2 ha) hA.1
  have hxa : Rests [file] (file, e') (a.file, a.type) := .aliased hx (defines_iff.2 ha) hA.1
  have hnone := hcircle (file, e') _ (.single hxa) (.head hab (.single hba)) ⟨0, [4, 0, 1, 1]⟩ table
  refine ⟨file, table, e, e', hfile, hknown, htable, he, (hmeans _).1 htype, he', fun t hm => ?_, hnone⟩
  have hsome := (hresolve file ⟨0, [4, 0, 1, 1]⟩ e' table t).2 hm
  rw [hnone] at hsome
  cases hsome

end Types

end ParallelTests
