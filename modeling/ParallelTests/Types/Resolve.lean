import ParallelTests.Node.Walk
import ParallelTests.Types.Table

/-!
Finding the types of parameters. A name is looked up among the types of the package, then in the
one dot import of its file, then among the predeclared types.
-/

namespace ParallelTests.Types

structure Scope where
  imports : List (String × String)
  dots : List String
  deriving DecidableEq, Repr

namespace Scope

def add (s : Scope) (spec : Node) : Scope :=
  match spec.shape with
  | .importSpec (some ".") path => { s with dots := s.dots ++ [path] }
  | .importSpec (some "_") _ => s
  | .importSpec (some name) path => { s with imports := (name, path) :: s.imports }
  | .importSpec none path => { s with imports := (importName path, path) :: s.imports }
  | _ => s

def ofFile (file : Node) : Scope :=
  match file.shape with
  | .file _ _ imports _ => imports.foldl add ⟨[], []⟩
  | _ => ⟨[], []⟩

def package? (s : Scope) (name : String) : Option String := s.imports.lookup name

end Scope

structure Declared where
  name : String
  isAlias : Bool
  type : Node
  place : Place
  scope : Scope

def declaredIn (index : Nat) (file : Node) : List Declared :=
  let scope := Scope.ofFile file
  file.children.zipIdx.flatMap fun (decl, d) =>
    match decl.shape with
    | .typeDecl specs =>
      specs.zipIdx.filterMap fun (spec, i) =>
        match spec.shape with
        | .typeSpec name isAlias type =>
          some ⟨name.name, isAlias, type, ⟨index, [d, i, 1]⟩, scope⟩
        | _ => none
    | _ => []

def declared (files : List Node) : List Declared :=
  files.zipIdx.flatMap fun (file, i) => declaredIn i file

def lookup? (local_ : List Declared) (name : String) : Option Declared :=
  local_.reverse.find? (·.name = name)

def unseen (local_ : List Declared) (seen : List String) : List Declared :=
  local_.filter fun d => d.name ∉ seen

theorem length_unseen_lt {local_ : List Declared} {seen : List String} {name : String}
    {d : Declared} (h : lookup? local_ name = some d) (hn : name ∉ seen) :
    (unseen local_ (name :: seen)).length < (unseen local_ seen).length := by
  have hd : d ∈ local_ := by simpa using List.mem_of_find?_eq_some h
  have hname : d.name = name := by simpa using List.find?_some h
  have hsub : unseen local_ (name :: seen) = (unseen local_ seen).filter (·.name ≠ name) := by
    simp only [unseen, List.filter_filter]
    congr 1
    funext e
    by_cases he : e.name = name <;> simp [he]
  rw [hsub]
  apply List.length_filter_lt_length_iff_exists.2
  exact ⟨d, by simp [unseen, hd, hname, hn], by simp [hname]⟩

def heaviest (local_ : List Declared) : Nat := Node.weights (local_.map (·.type)) + 1

theorem weight_lt_heaviest {local_ : List Declared} {name : String} {d : Declared}
    (h : lookup? local_ name = some d) : d.type.weight < heaviest local_ := by
  have hd : d ∈ local_ := by simpa using List.mem_of_find?_eq_some h
  have := Node.weight_le_of_mem (List.mem_map_of_mem (f := (·.type)) hd)
  rw [heaviest]
  omega

theorem alias_decreases {local_ : List Declared} {seen : List String} {name : String} {d : Declared}
    (h : lookup? local_ name = some d) (hn : name ∉ seen) :
    (unseen local_ (name :: seen)).length * heaviest local_ + d.type.weight <
      (unseen local_ seen).length * heaviest local_ := by
  have hl := Nat.mul_le_mul_right (heaviest local_) (length_unseen_lt h hn)
  have hw := weight_lt_heaviest h
  rw [Nat.succ_mul] at hl
  omega

/-- The type of an expression, which is recorded with those met on the way. `seen` are the aliases
being followed: one that leads back to itself has no type. -/
def resolve (package : String) (local_ : List Declared) (scope : Scope) (seen : List String)
    (place : Place) (e : Node) (table : TypeTable) : Option ResolvedType × TypeTable :=
  let result : Option ResolvedType × TypeTable :=
    match e with
    | .mk _ _ _ (.star x) =>
      let (elem, table) :=
        resolve package local_ scope seen ⟨place.file, place.address ++ [0]⟩ x table
      (elem.map .pointer, table)
    | .mk _ _ _ (.selector x sel) =>
      match x.ident?, sel.ident? with
      | some qualifier, some name => ((scope.package? qualifier).map (.named · name), table)
      | _, _ => (none, table)
    | .mk _ _ _ (.ident name) =>
      match h : lookup? local_ name with
      | some d =>
        if !d.isAlias then (some (.named package name), table)
        else if hn : name ∈ seen then (none, table)
        else
          have := alias_decreases h hn
          resolve package local_ d.scope (name :: seen) d.place d.type table
      | none =>
        match scope.dots with
        | [path] => (some (.named path name), table)
        | _ => (if name ∈ predeclared then some (.basic name) else none, table)
    | _ => (none, table)
  match result with
  | (some type, table) => (some type, table.record place type)
  | (none, table) => (none, table)
termination_by (unseen local_ seen).length * heaviest local_ + e.weight
decreasing_by all_goals
  (try simp only [Node.weight, Shape.weight] at *)
  omega

def resolveFile (package : String) (local_ : List Declared) (index : Nat) (file : Node)
    (table : TypeTable) : Except Breach TypeTable :=
  let scope := Scope.ofFile file
  let visit (a : Address) (n : Node) (table : TypeTable) : Verdict × TypeTable :=
    match n.shape with
    | .funcType params =>
      let table := params.zipIdx.foldl (fun table (param, i) =>
        match param.shape with
        | .field names type =>
          (resolve package local_ scope [] ⟨index, a ++ [i, names.length]⟩ type table).2
        | _ => table) table
      (.skip, table)
    | _ => (.enter, table)
  (file.walk visit [] table).map (·.2)

def resolveAll (package : String) (files : List Node) : Except Breach TypeTable :=
  files.zipIdx.foldlM (fun table (file, i) =>
    resolveFile package (declared files) i file table) {}

end ParallelTests.Types
