import ParallelTests.Proofs.Edit.Frame

namespace ParallelTests

inductive Leads : Node → Address → Node → Prop
  | here {n : Node} : Leads n [] n
  | step {n c m : Node} {i : Nat} {a : Address} (hi : n.children[i]? = some c)
      (hs : c.kind.isSilent = false) (h : Leads c a m) : Leads n (i :: a) m

namespace Leads

variable {n m k : Node} {a b : Address}

lemma at? (h : Leads n a m) : n.at? a = some m := by
  induction h with
  | here => rfl
  | step hi _ _ ih => rw [Node.at?_cons, hi, Option.bind_some, ih]

lemma trans (h : Leads n a m) (h' : Leads m b k) : Leads n (a ++ b) k := by
  induction h with
  | here => exact h'
  | step hi hs _ ih => exact .step hi hs (ih h')

lemma single {i : Nat} (hi : n.children[i]? = some m) (hs : m.kind.isSilent = false) :
    Leads n [i] m :=
  .step hi hs .here

lemma tail (h : Leads n (a ++ b) m) (hk : Leads n a k) : Leads k b m := by
  induction hk with
  | here => exact h
  | step hi _ _ ih =>
    cases h with
    | step hi' _ h =>
      obtain rfl := Option.some.inj (hi.symm.trans hi')
      exact ih h

lemma eq_of_children (h : Leads n a m) (hn : n.children = []) : m = n := by
  cases h with
  | here => rfl
  | step hi => simp [hn] at hi

end Leads

namespace Node

lemma mapIdx_eq_modify (f : Node → Node) (i : Nat) (ns : List Node) :
    (ns.mapIdx fun j c => if j = i then f c else c) = ns.modify i f := by
  refine List.ext_getElem? fun j => ?_
  rw [List.getElem?_mapIdx, List.getElem?_modify]
  cases ns[j]? with
  | none => rfl
  | some c =>
    by_cases h : j = i
    · simp [h]
    · simp [h, Ne.symm h]

lemma children_modifyAt (f : Node → Node) (i : Nat) (a : Address) (n : Node) :
    (n.modifyAt f (i :: a)).children = n.children.modify i (modifyAt f a) := by
  rw [modifyAt, children_mapChildren, mapIdx_eq_modify]

end Node

lemma Leads.modifyAt {f : Node → Node} (hf : ∀ m : Node, m.Alike (f m)) {n m : Node} {a : Address}
    (h : Leads n a m) : Leads (n.modifyAt f a) a (f m) := by
  induction h with
  | here => exact .here
  | @step n c m i a hi hs _ ih =>
    refine .step (c := c.modifyAt f a) ?_ ?_ ih
    · rw [Node.children_modifyAt, List.getElem?_modify_eq, hi]
      rfl
    · rwa [(Node.alike_modifyAt hf a c).kind]

end ParallelTests
