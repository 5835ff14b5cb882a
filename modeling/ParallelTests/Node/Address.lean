import ParallelTests.Node.Basic

namespace ParallelTests

abbrev Address := List Nat

namespace Node

def at? : Address → Node → Option Node
  | [], n => some n
  | i :: rest, n => n.children[i]?.bind (at? rest)

def mapChildren (f : Nat → Node → Node) (n : Node) : Node := n.withShape (n.shape.mapChildren f)

def modifyAt (f : Node → Node) : Address → Node → Node
  | [], n => f n
  | i :: rest, n => n.mapChildren fun j c => if j = i then modifyAt f rest c else c

@[simp] theorem at?_nil (n : Node) : n.at? [] = some n := rfl

@[simp] theorem at?_cons (i : Nat) (rest : Address) (n : Node) :
    n.at? (i :: rest) = n.children[i]?.bind (at? rest) := rfl

theorem at?_append (n : Node) (p q : Address) : n.at? (p ++ q) = (n.at? p).bind (at? q) := by
  induction p generalizing n with
  | nil => rfl
  | cons i rest ih =>
    rw [List.cons_append, at?_cons, at?_cons]
    rcases n.children[i]? with _ | c
    · rfl
    · exact ih c

theorem children_mapChildren (f : Nat → Node → Node) (n : Node) :
    (n.mapChildren f).children = n.children.mapIdx f := by
  cases n
  exact Shape.children_mapChildren f _

theorem at?_modifyAt (f : Node → Node) (p : Address) (n : Node) :
    (n.modifyAt f p).at? p = (n.at? p).map f := by
  induction p generalizing n with
  | nil => rfl
  | cons i rest ih =>
    simp only [modifyAt, at?_cons, children_mapChildren, List.getElem?_mapIdx]
    cases n.children[i]? with
    | none => rfl
    | some c => simp [ih]

end Node

end ParallelTests
