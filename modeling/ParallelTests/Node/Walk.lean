import ParallelTests.Breach
import ParallelTests.Node.Address

/-!
Walking a tree from the root down, each node before those below it. The visitor says after each
node whether to go on below it, past it, or not at all.
-/

namespace ParallelTests

inductive Verdict
  | enter
  | skip
  | stop
  deriving DecidableEq, Repr

namespace Node

def walk {σ : Type} (visit : Address → Node → σ → Verdict × σ) (at_ : Address) (n : Node) (st : σ) :
    Except Breach (Bool × σ) :=
  match visit at_ n st with
  | (.stop, st) => .ok (false, st)
  | (.skip, st) => .ok (true, st)
  | (.enter, st) =>
    match n.shape with
    | .unknown name => .error (.unknownKind (.unknown name))
    | _ =>
      n.children.attach.zipIdx.foldlM (fun (going, st) (⟨c, h⟩, i) =>
        have := weight_lt_of_mem_children h
        if going then walk visit (at_ ++ [i]) c st else .ok (going, st)) (true, st)
termination_by n.weight

def findFirst (test : Address → Node → Bool) (at_ : Address) (n : Node) :
    Except Breach (Option (Address × Node)) :=
  let visit (a : Address) (n : Node) (found : Option (Address × Node)) :=
    if test a n then (Verdict.stop, some (a, n)) else (.enter, found)
  (n.walk visit at_ none).map (·.2)

def holds (n : Node) (at_ target : Address) : Except Breach Bool :=
  (n.findFirst (fun a _ => a = target) at_).map Option.isSome

/-- All nodes of a tree with their addresses, each before those below it. -/
def preorder (at_ : Address) (n : Node) : List (Address × Node) :=
  (at_, n) :: n.children.attach.zipIdx.flatMap fun (⟨c, h⟩, i) =>
    have := weight_lt_of_mem_children h
    preorder (at_ ++ [i]) c
termination_by n.weight

def visited (n : Node) : Except Breach (List (Address × Node)) :=
  (n.walk (fun a n seen => (Verdict.enter, (a, n) :: seen)) [] []).map fun r => r.2.reverse

end Node

end ParallelTests
