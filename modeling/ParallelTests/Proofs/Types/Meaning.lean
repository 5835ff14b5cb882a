import Mathlib.Logic.Relation
import ParallelTests.Proofs.Result
import ParallelTests.Types.Resolve

/-!
What a type expression means, said without a search: by rules on the imports of its file and on the
type definitions of the package. An alias that leads back to itself means nothing.
-/

namespace ParallelTests

namespace Node

def imports (file : Node) : List Node :=
  match file.shape with
  | .file _ _ imports _ => imports
  | _ => []

def typeSpecs (decl : Node) : List Node :=
  match decl.shape with
  | .typeDecl specs => specs
  | _ => []

end Node

namespace Types

def knownAs (spec : Node) : Option (String × String) :=
  match spec.shape with
  | .importSpec (some ".") _ | .importSpec (some "_") _ => none
  | .importSpec (some name) path => some (name, path)
  | .importSpec none path => some (importName path, path)
  | _ => none

def dotPath (spec : Node) : Option String :=
  match spec.shape with
  | .importSpec (some ".") path => some path
  | _ => none

/-- A file knows a package by a name; of several imports with the name the last counts. -/
def Imports (file : Node) (name path : String) : Prop :=
  ∃ before after, file.imports.filterMap knownAs = before ++ (name, path) :: after ∧
    ∀ p ∈ after, p.1 ≠ name

def dotImports (file : Node) : List String := file.imports.filterMap dotPath

/-- A type definition, with the file it stands in. -/
structure Definition where
  file : Node
  name : String
  isAlias : Bool
  type : Node

def definition? (file spec : Node) : Option Definition :=
  match spec.shape with
  | .typeSpec name isAlias type => some ⟨file, name.name, isAlias, type⟩
  | _ => none

def definitions (files : List Node) : List Definition :=
  files.flatMap fun file => file.children.flatMap fun decl =>
    decl.typeSpecs.filterMap (definition? file)

def Defines (files : List Node) (name : String) (d : Definition) : Prop :=
  ∃ before after, definitions files = before ++ d :: after ∧ d.name = name ∧
    ∀ e ∈ after, e.name ≠ name

/-- The type that an expression in a file means. -/
inductive Means (package : String) (files : List Node) : Node → Node → ResolvedType → Prop
  | pointer {file e x : Node} {type : ResolvedType} (he : e.shape = .star x)
      (h : Means package files file x type) : Means package files file e (.pointer type)
  | imported {file e x sel : Node} {qualifier name path : String} (he : e.shape = .selector x sel)
      (hx : x.shape = .ident qualifier) (hs : sel.shape = .ident name)
      (hi : Imports file qualifier path) : Means package files file e (.named path name)
  | declared {file e : Node} {name : String} {d : Definition} (he : e.shape = .ident name)
      (hd : Defines files name d) (ha : d.isAlias = false) :
      Means package files file e (.named package name)
  | aliased {file e : Node} {name : String} {d : Definition} {type : ResolvedType}
      (he : e.shape = .ident name) (hd : Defines files name d) (ha : d.isAlias = true)
      (h : Means package files d.file d.type type) : Means package files file e type
  | dotImported {file e : Node} {name path : String} (he : e.shape = .ident name)
      (hn : ∀ d ∈ definitions files, d.name ≠ name) (hd : dotImports file = [path]) :
      Means package files file e (.named path name)
  | predeclared {file e : Node} {name : String} (he : e.shape = .ident name)
      (hn : ∀ d ∈ definitions files, d.name ≠ name) (hd : (dotImports file).length ≠ 1)
      (hp : name ∈ predeclared) : Means package files file e (.basic name)

/-- A step from an expression, in its file, to the one that decides what it means. -/
inductive Rests (files : List Node) : Node × Node → Node × Node → Prop
  | star {file e x : Node} (he : e.shape = .star x) : Rests files (file, e) (file, x)
  | aliased {file e : Node} {name : String} {d : Definition} (he : e.shape = .ident name)
      (hd : Defines files name d) (ha : d.isAlias = true) : Rests files (file, e) (d.file, d.type)

section Lookup

variable {α β : Type} {R : α → β → Prop} {xs : List α} {ys : List β}

lemma find?_eq_some_iff_last {p : α → Bool} {x : α} : xs.reverse.find? p = some x ↔
    ∃ before after, xs = before ++ x :: after ∧ p x = true ∧ ∀ y ∈ after, p y = false := by
  rw [List.find?_eq_some_iff_append]
  constructor
  · rintro ⟨hp, as, bs, hrev, has⟩
    refine ⟨bs.reverse, as.reverse, ?_, hp, by simpa using has⟩
    rw [← List.reverse_reverse xs, hrev]
    simp
  · rintro ⟨before, after, rfl, hp, hafter⟩
    exact ⟨hp, after.reverse, before.reverse, by simp, by simpa using hafter⟩

lemma forall₂_find? {p : α → Bool} {q : β → Bool} (hpq : ∀ x y, R x y → q y = p x)
    (h : List.Forall₂ R xs ys) :
    (xs.find? p = none ∧ ys.find? q = none) ∨
      ∃ x y, xs.find? p = some x ∧ ys.find? q = some y ∧ R x y := by
  induction h with
  | nil => exact .inl ⟨rfl, rfl⟩
  | @cons x y xs ys hr _ ih =>
    rw [List.find?_cons, List.find?_cons, hpq x y hr]
    cases p x with
    | true => exact .inr ⟨x, y, rfl, rfl, hr⟩
    | false => exact ih

lemma forall₂_zipIdx (xs : List α) :
    List.Forall₂ (fun p x => xs[p.2]? = some x ∧ p.1 = x) xs.zipIdx xs := by
  conv => arg 3; rw [← List.zipIdx_map_fst 0 xs]
  rw [List.forall₂_map_right_iff, List.forall₂_same]
  rintro ⟨x, i⟩ hx
  exact ⟨List.mem_zipIdx_iff_getElem?.1 hx, rfl⟩

end Lookup

variable {files : List Node} {name : String}

lemma defines_iff {d : Definition} :
    Defines files name d ↔ (definitions files).reverse.find? (·.name = name) = some d := by
  rw [find?_eq_some_iff_last]
  simp [Defines]

lemma Defines.unique {d d' : Definition} (h : Defines files name d) (h' : Defines files name d') :
    d' = d :=
  Option.some.inj ((defines_iff.1 h').symm.trans (defines_iff.1 h))

lemma Defines.mem {d : Definition} (h : Defines files name d) :
    d ∈ definitions files ∧ d.name = name := by
  obtain ⟨before, after, hsplit, hname, -⟩ := h
  exact ⟨by simp [hsplit], hname⟩

structure Stands (files : List Node) (d : Declared) (t : Definition) : Prop where
  name : d.name = t.name
  isAlias : d.isAlias = t.isAlias
  type : d.type = t.type
  scope : d.scope = .ofFile t.file
  file_at : files[d.place.file]? = some t.file
  type_at : t.file.at? d.place.address = some t.type

lemma forall₂_declared (files : List Node) :
    List.Forall₂ (Stands files) (declared files) (definitions files) := by
  refine List.rel_flatMap (forall₂_zipIdx files) ?_
  rintro ⟨file, i⟩ _ ⟨hfile, rfl⟩
  refine List.rel_flatMap (forall₂_zipIdx file.children) ?_
  rintro ⟨decl, d⟩ _ ⟨hdecl, rfl⟩
  dsimp only
  cases hshape : decl.shape with
  | typeDecl specs =>
    rw [Node.typeSpecs, hshape]
    refine List.rel_filterMap ?_ (forall₂_zipIdx specs)
    rintro ⟨spec, j⟩ _ ⟨hspec, rfl⟩
    dsimp only at hdecl hspec ⊢
    cases hs : spec.shape with
    | typeSpec name isAlias type =>
      have hspecs : decl.children = specs := by rw [Node.children, hshape, Shape.children]
      have hparts : spec.children = [name, type] := by rw [Node.children, hs, Shape.children]
      rw [definition?, hs]
      refine .some ⟨rfl, rfl, rfl, rfl, hfile, ?_⟩
      rw [Node.at?_cons, hdecl, Option.bind_some, Node.at?_cons, hspecs, hspec, Option.bind_some,
        Node.at?_cons, hparts]
      rfl
    | _ =>
      rw [definition?, hs]
      exact .none
  | _ =>
    rw [Node.typeSpecs, hshape]
    exact .nil

lemma lookup?_cases (files : List Node) (name : String) :
    (lookup? (declared files) name = none ∧ ∀ d ∈ definitions files, d.name ≠ name) ∨
      ∃ d t, lookup? (declared files) name = some d ∧ Defines files name t ∧ Stands files d t := by
  have h := forall₂_find? (p := fun d => decide (d.name = name))
    (q := fun t => decide (t.name = name)) (fun d t hst => by rw [hst.name])
    (List.rel_reverse (forall₂_declared files))
  rcases h with ⟨hnone, hnone'⟩ | ⟨d, t, hd, ht, hst⟩
  · exact .inl ⟨hnone, by simpa using hnone'⟩
  · exact .inr ⟨d, t, hd, defines_iff.2 ht, hst⟩

lemma add_eq (s : Scope) (spec : Node) :
    s.add spec = ⟨(knownAs spec).toList ++ s.imports, s.dots ++ (dotPath spec).toList⟩ := by
  unfold Scope.add knownAs dotPath
  split <;> simp_all

lemma foldl_add (s : Scope) (specs : List Node) :
    specs.foldl Scope.add s =
      ⟨(specs.filterMap knownAs).reverse ++ s.imports, s.dots ++ specs.filterMap dotPath⟩ := by
  induction specs generalizing s with
  | nil => simp
  | cons spec specs ih =>
    rw [List.foldl_cons, ih, add_eq, List.filterMap_cons, List.filterMap_cons]
    cases knownAs spec <;> cases dotPath spec <;> simp

lemma ofFile_eq (file : Node) :
    Scope.ofFile file = ⟨(file.imports.filterMap knownAs).reverse, dotImports file⟩ := by
  have hfold : Scope.ofFile file = file.imports.foldl Scope.add ⟨[], []⟩ := by
    cases h : file.shape <;> simp [Scope.ofFile, Node.imports, h]
  rw [hfold, foldl_add, List.append_nil, List.nil_append, dotImports]

lemma package?_eq_some_iff {file : Node} {path : String} :
    (Scope.ofFile file).package? name = some path ↔ Imports file name path := by
  rw [ofFile_eq, Scope.package?, List.lookup_eq_some_iff]
  dsimp only
  constructor
  · rintro ⟨as, bs, hrev, has⟩
    refine ⟨bs.reverse, as.reverse, ?_, fun p hp => ?_⟩
    · rw [← List.reverse_reverse (List.filterMap _ _), hrev]
      simp
    · exact (bne_iff_ne.1 (has p (List.mem_reverse.1 hp))).symm
  · rintro ⟨before, after, h, hafter⟩
    refine ⟨after.reverse, before.reverse, by simp [h], fun p hp => ?_⟩
    exact bne_iff_ne.2 (hafter p (List.mem_reverse.1 hp)).symm

variable {package : String} {file e : Node} {type : ResolvedType}

lemma Means.acc (h : Means package files file e type) :
    Acc (fun p q => Rests files q p) (file, e) := by
  have hend {file e : Node} (hs : ∀ p, ¬Rests files (file, e) p) :
      Acc (fun p q => Rests files q p) (file, e) := ⟨_, fun p hp => absurd hp (hs p)⟩
  induction h with
  | pointer he _ ih =>
    refine ⟨_, fun p hp => ?_⟩
    cases hp with
    | star he' =>
      obtain rfl := Shape.star.inj (he.symm.trans he')
      exact ih
    | aliased he' => cases he.symm.trans he'
  | imported he =>
    refine hend fun p hp => ?_
    cases hp with
    | star he' => cases he.symm.trans he'
    | aliased he' => cases he.symm.trans he'
  | declared he hd ha =>
    refine hend fun p hp => ?_
    cases hp with
    | star he' => cases he.symm.trans he'
    | aliased he' hd' ha' =>
      obtain rfl := Shape.ident.inj (he.symm.trans he')
      obtain rfl := hd.unique hd'
      cases ha.symm.trans ha'
  | aliased he hd _ _ ih =>
    refine ⟨_, fun p hp => ?_⟩
    cases hp with
    | star he' => cases he.symm.trans he'
    | aliased he' hd' =>
      obtain rfl := Shape.ident.inj (he.symm.trans he')
      obtain rfl := hd.unique hd'
      exact ih
  | dotImported he hn | predeclared he hn =>
    refine hend fun p hp => ?_
    cases hp with
    | star he' => cases he.symm.trans he'
    | aliased he' hd' =>
      obtain rfl := Shape.ident.inj (he.symm.trans he')
      exact hn _ hd'.mem.1 hd'.mem.2

lemma not_transGen_of_acc {p : Node × Node} (h : Acc (fun p q => Rests files q p) p) :
    ¬Relation.TransGen (Rests files) p p := by
  induction h with
  | intro p _ ih =>
    intro hcycle
    obtain ⟨q, hstep, hrest⟩ := Relation.TransGen.head'_iff.1 hcycle
    exact ih q hstep (.tail' hrest hstep)

end Types

end ParallelTests
