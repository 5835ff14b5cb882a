import ParallelTests.Proofs.Parse.Formed
import ParallelTests.Proofs.Result

namespace ParallelTests.Node

variable {σ : Type} {visit : Address → Node → σ → Verdict × σ} {M : Address → Node → σ → Bool × σ → Prop}

def walkAll (visit : Address → Node → σ → Verdict × σ) (a : Address) (index : Nat) :
    List Node → σ → Except Breach (Bool × σ)
  | [], st => .ok (true, st)
  | c :: cs, st => do
    let r ← walk visit (a ++ [index]) c st
    if r.1 then walkAll visit a (index + 1) cs r.2 else .ok r

lemma foldlM_of_stopped (f : σ → Node → Nat → Except Breach (Bool × σ)) (cs : List (Node × Nat))
    (st : σ) :
    cs.foldlM (fun (r : Bool × σ) c => if r.1 then f r.2 c.1 c.2 else .ok r) (false, st) =
      .ok (false, st) := by
  induction cs with
  | nil => rfl
  | cons c cs ih => exact ih

lemma foldlM_eq_walkAll (a : Address) (index : Nat) (cs : List Node) (st : σ) :
    (cs.zipIdx index).foldlM (fun (r : Bool × σ) c =>
      if r.1 then walk visit (a ++ [c.2]) c.1 r.2 else .ok r) (true, st) =
      walkAll visit a index cs st := by
  induction cs generalizing index st with
  | nil => rfl
  | cons c cs ih =>
    rw [List.zipIdx_cons, List.foldlM_cons, walkAll]
    refine bind_congr fun r => ?_
    obtain ⟨going, st⟩ := r
    cases going with
    | true => exact ih (index + 1) st
    | false => exact foldlM_of_stopped (fun st c i => walk visit (a ++ [i]) c st) _ st

lemma walk_of_enter {a : Address} {n : Node} {st st' : σ} (h : visit a n st = (.enter, st'))
    (hn : ∀ name, n.shape ≠ .unknown name) :
    n.walk visit a st = walkAll visit a 0 n.children st' := by
  rw [walk]
  simp only [h]
  rw [← foldlM_eq_walkAll]
  conv => rhs; rw [← List.attach_map_subtype_val n.children, List.zipIdx_map, List.foldlM_map]
  rfl

lemma walk_of_unknown {a : Address} {n : Node} {st st' : σ} {name : String}
    (h : visit a n st = (.enter, st')) (hn : n.shape = .unknown name) :
    n.walk visit a st = .error (.unknownKind (.unknown name)) := by
  rw [walk]
  simp [h, hn]

inductive Chain (M : Address → Node → σ → Bool × σ → Prop) (a : Address) :
    Nat → List Node → σ → Bool × σ → Prop
  | nil {i : Nat} {st : σ} : Chain M a i [] st (true, st)
  | halt {i : Nat} {c : Node} {cs : List Node} {st st' : σ} (h : M (a ++ [i]) c st (false, st')) :
      Chain M a i (c :: cs) st (false, st')
  | next {i : Nat} {c : Node} {cs : List Node} {st st' : σ} {r : Bool × σ}
      (h : M (a ++ [i]) c st (true, st')) (hc : Chain M a (i + 1) cs st' r) :
      Chain M a i (c :: cs) st r

lemma chain_of_walkAll {a : Address} {cs : List Node}
    (h : ∀ c ∈ cs, ∀ a st r, c.walk visit a st = .ok r → M a c st r) {i : Nat} {st : σ}
    {r : Bool × σ} (hr : walkAll visit a i cs st = .ok r) : Chain M a i cs st r := by
  induction cs generalizing i st with
  | nil =>
    obtain rfl := Except.ok.inj hr
    exact .nil
  | cons c cs ih =>
    obtain ⟨⟨going, st'⟩, hw, hr⟩ := Except.bind_eq_ok_iff.1 hr
    have hm := h c (by simp) _ _ _ hw
    cases going with
    | true => exact .next hm (ih (fun c hc => h c (by simp [hc])) hr)
    | false =>
      obtain rfl := Except.ok.inj hr
      exact .halt hm

theorem walk_induct (stop : ∀ a n st st', visit a n st = (.stop, st') → M a n st (false, st'))
    (skip : ∀ a n st st', visit a n st = (.skip, st') → M a n st (true, st'))
    (enter : ∀ a n st st' r, visit a n st = (.enter, st') → Chain M a 0 n.children st' r →
      M a n st r) {a : Address} {n : Node} {st : σ} {r : Bool × σ}
    (h : n.walk visit a st = .ok r) : M a n st r := by
  induction hw : n.weight using Nat.strong_induction_on generalizing a n st r with
  | _ w ih =>
    subst hw
    obtain ⟨verdict, st', hv⟩ : ∃ verdict st', visit a n st = (verdict, st') := ⟨_, _, rfl⟩
    cases verdict with
    | stop =>
      rw [walk, hv] at h
      exact Except.ok.inj h ▸ stop a n st st' hv
    | skip =>
      rw [walk, hv] at h
      exact Except.ok.inj h ▸ skip a n st st' hv
    | enter =>
      by_cases hn : ∀ name, n.shape ≠ .unknown name
      · rw [walk_of_enter hv hn] at h
        refine enter a n st st' r hv (chain_of_walkAll (fun c hc a st r hr => ?_) h)
        exact ih c.weight (weight_lt_of_mem_children hc) hr rfl
      · push Not at hn
        obtain ⟨name, hn⟩ := hn
        rw [walk_of_unknown hv hn] at h
        cases h

lemma walkAll_ok {cs : List Node} (h : ∀ c ∈ cs, ∀ a st, ∃ r, c.walk visit a st = .ok r)
    (a : Address) (i : Nat) (st : σ) : ∃ r, walkAll visit a i cs st = .ok r := by
  induction cs generalizing i st with
  | nil => exact ⟨_, rfl⟩
  | cons c cs ih =>
    obtain ⟨⟨going, st'⟩, hw⟩ := h c (by simp) (a ++ [i]) st
    rw [walkAll, hw]
    cases going with
    | true => exact ih (fun c hc => h c (by simp [hc])) (i + 1) st'
    | false => exact ⟨_, rfl⟩

/-- A tree in which the kind of every node is known. -/
def Known (n : Node) : Prop := ∀ a m, n.at? a = some m → ∀ name, m.shape ≠ .unknown name

lemma Known.child {n c : Node} (h : n.Known) (hc : c ∈ n.children) : c.Known := by
  intro a m hm
  obtain ⟨i, hi⟩ := List.mem_iff_getElem?.1 hc
  exact h (i :: a) m (by rw [at?_cons, hi, Option.bind_some, hm])

theorem Known.walk_ok {n : Node} (h : n.Known) (a : Address) (st : σ) :
    ∃ r, n.walk visit a st = .ok r := by
  induction hw : n.weight using Nat.strong_induction_on generalizing a n st with
  | _ w ih =>
    subst hw
    obtain ⟨verdict, st', hv⟩ : ∃ verdict st', visit a n st = (verdict, st') := ⟨_, _, rfl⟩
    cases verdict with
    | stop => exact ⟨_, by rw [walk, hv]⟩
    | skip => exact ⟨_, by rw [walk, hv]⟩
    | enter =>
      rw [walk_of_enter hv (h [] n rfl)]
      exact walkAll_ok (fun c hc a st => ih _ (weight_lt_of_mem_children hc) (h.child hc) a st rfl) a 0 st'

lemma known_of_shaped {named : String → Prop} {n : Node} (h : Shaped named n) : n.Known := by
  intro a m hm name he
  have hp := (h.at? hm).proper
  rw [he] at hp
  exact hp

theorem walk_ok {named : String → Prop} {n : Node} (h : Shaped named n) (a : Address) (st : σ) :
    ∃ r, n.walk visit a st = .ok r :=
  (known_of_shaped h).walk_ok a st

lemma preorder_eq (at_ : Address) (n : Node) : n.preorder at_ =
    (at_, n) :: (n.children.zipIdx.flatMap fun c => c.1.preorder (at_ ++ [c.2])) := by
  rw [preorder]
  conv => rhs; rw [← List.attach_map_subtype_val n.children, List.zipIdx_map, List.flatMap_map]
  rfl

lemma mem_preorder {at_ a : Address} {n m : Node} :
    (a, m) ∈ n.preorder at_ ↔ ∃ rel, a = at_ ++ rel ∧ n.at? rel = some m := by
  induction hw : n.weight using Nat.strong_induction_on generalizing at_ n with
  | _ w ih =>
    subst hw
    rw [preorder_eq, List.mem_cons, List.mem_flatMap]
    constructor
    · rintro (h | ⟨⟨c, i⟩, hi, h⟩)
      · obtain ⟨rfl, rfl⟩ := Prod.mk.inj h
        exact ⟨[], by simp, rfl⟩
      · have hc := List.mem_zipIdx_iff_getElem?.1 hi
        obtain ⟨rel, rfl, hm⟩ :=
          (ih c.weight (weight_lt_of_mem_children (List.mem_of_getElem? hc)) rfl).1 h
        exact ⟨i :: rel, by simp, by rw [at?_cons, hc, Option.bind_some, hm]⟩
    · rintro ⟨rel, rfl, hm⟩
      cases rel with
      | nil =>
        obtain rfl := Option.some.inj hm
        exact .inl (by simp)
      | cons i rel =>
        obtain ⟨c, hc, hm⟩ := Option.bind_eq_some_iff.1 hm
        have hlt := weight_lt_of_mem_children (List.mem_of_getElem? hc)
        refine .inr ⟨(c, i), List.mem_zipIdx_iff_getElem?.2 hc, ?_⟩
        exact (ih c.weight hlt rfl).2 ⟨rel, by simp, hm⟩

lemma eq_of_isPrefix_concat {a x : Address} {i j : Nat} (h : a ++ [i] <+: x) (h' : a ++ [j] <+: x) :
    i = j := by
  obtain ⟨y, rfl⟩ := h
  obtain ⟨z, hz⟩ := h'
  rw [List.append_assoc, List.append_assoc, List.append_cancel_left_eq] at hz
  exact (List.cons.inj hz).1.symm

end ParallelTests.Node
