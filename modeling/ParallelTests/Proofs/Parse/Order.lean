import ParallelTests.Node.Attach
import ParallelTests.Proofs.Parse.Formed

/-!
Where the statements of a tree start. Each rule of the grammar gives a node whose statements start
between the ends of its span, each after those before it in a walk over the tree.
-/

namespace ParallelTests

def Node.starts (n : Node) : List Nat :=
  (if n.kind.isStmt then n.span.toList.map (·.start) else []) ++
    n.children.attach.flatMap fun ⟨c, h⟩ =>
      have := weight_lt_of_mem_children h
      starts c
termination_by n.weight

lemma Node.starts_eq (n : Node) : n.starts =
    (if n.kind.isStmt then n.span.toList.map (·.start) else []) ++ n.children.flatMap starts := by
  rw [starts]
  conv => rhs; rw [← List.attach_map_subtype_val n.children, List.flatMap_map]

namespace Placed

def inner (p : Placed) : List Nat := p.shape.children.flatMap Node.starts

lemma starts_node (p : Placed) :
    p.node.starts = (if p.shape.kind.isStmt then [p.span.start] else []) ++ p.inner :=
  Node.starts_eq p.node

end Placed

def startsIn (ps : List Placed) : List Nat := ps.flatMap (·.node.starts)

lemma startsIn_append (ps qs : List Placed) : startsIn (ps ++ qs) = startsIn ps ++ startsIn qs :=
  List.flatMap_append

lemma flatMap_starts (ps : List Placed) : (ps.map Placed.node).flatMap Node.starts = startsIn ps :=
  List.flatMap_map _ _ _

@[simp] lemma startsIn_singleton (p : Placed) : startsIn [p] = p.node.starts :=
  List.flatMap_singleton _ _

structure Rising (a : Nat) (xs : List Nat) (b : Nat) : Prop where
  pairwise : xs.Pairwise (· < ·)
  bounds : ∀ x ∈ xs, a ≤ x ∧ x < b

namespace Rising

variable {a b m : Nat} {xs ys : List Nat}

lemma nil (a b : Nat) : Rising a [] b := ⟨.nil, by simp⟩

lemma mono (h : Rising a xs b) {a' b' : Nat} (ha : a' ≤ a) (hb : b ≤ b') : Rising a' xs b' :=
  ⟨h.pairwise, fun x hx => ⟨ha.trans (h.bounds x hx).1, (h.bounds x hx).2.trans_le hb⟩⟩

lemma append {a' b' : Nat} (h : Rising a xs b) (h' : Rising a' ys b') (hb : b ≤ a') (ha : a ≤ a')
    (hb' : b ≤ b') : Rising a (xs ++ ys) b' := by
  refine ⟨List.pairwise_append.2 ⟨h.pairwise, h'.pairwise, fun x hx y hy => ?_⟩,
    List.forall_mem_append.2 ⟨(h.mono (Nat.le_refl a) hb').bounds,
      (h'.mono ha (Nat.le_refl b')).bounds⟩⟩
  exact (h.bounds x hx).2.trans_le (hb.trans (h'.bounds y hy).1)

lemma cons {x : Nat} (h : Rising (x + 1) xs b) (ha : a ≤ x) (hb : x < b) : Rising a (x :: xs) b :=
  ⟨List.pairwise_cons.2 ⟨fun y hy => (h.bounds y hy).1, h.pairwise⟩,
    List.forall_mem_cons.2 ⟨⟨ha, hb⟩, (h.mono (by omega) (Nat.le_refl b)).bounds⟩⟩

lemma sublist (h : Rising a xs b) (hs : ys.Sublist xs) : Rising a ys b :=
  ⟨h.pairwise.sublist hs, fun x hx => h.bounds x (hs.subset hx)⟩

end Rising

structure Placed.Ordered (p : Placed) : Prop where
  lt : p.shape.kind.isStmt = true → p.span.start < p.span.stop
  rising : Rising (p.span.start + 1) p.inner p.span.stop

namespace Placed.Ordered

variable {p q : Placed}

lemma starts (h : p.Ordered) : Rising p.span.start p.node.starts p.span.stop := by
  rw [starts_node]
  split
  · next hk => exact h.rising.cons (Nat.le_refl _) (h.lt hk)
  · exact h.rising.mono (Nat.le_succ _) (Nat.le_refl _)

lemma starts_succ (h : p.Ordered) (hk : p.shape.kind.isStmt = false) :
    Rising (p.span.start + 1) p.node.starts p.span.stop := by
  rw [starts_node, if_neg (by simp [hk])]
  exact h.rising

lemma congr (h : p.Ordered) (hspan : q.span = p.span) (hshape : q.shape = p.shape) : q.Ordered := by
  have hin : q.inner = p.inner := by rw [inner, inner, hshape]
  exact ⟨hspan ▸ hshape ▸ h.lt, hspan ▸ hin ▸ h.rising⟩

end Placed.Ordered

structure Occupant.Ordered (o : Occupant) : Prop where
  stop_eq : o.stmt.shape.kind ≠ .caseClause → o.stop = o.stmt.span.stop
  rising : Rising o.stmt.span.start o.stmt.node.starts o.stop

def Lined : Nat → List Occupant → Nat → Prop
  | a, [], b => a ≤ b
  | a, o :: os, b =>
    a ≤ o.stmt.span.start ∧ o.stmt.span.start ≤ o.stop ∧
      Rising o.stmt.span.start o.stmt.node.starts o.stop ∧ Lined o.stop os b

lemma Lined.le {a b : Nat} {os : List Occupant} (h : Lined a os b) : a ≤ b := by
  induction os generalizing a with
  | nil => exact h
  | cons o os ih =>
    obtain ⟨ha, hle, -, hos⟩ := h
    exact ha.trans (hle.trans (ih hos))

lemma Lined.mono {a b b' : Nat} {os : List Occupant} (h : Lined a os b) (hb : b ≤ b') :
    Lined a os b' := by
  induction os generalizing a with
  | nil => exact Nat.le_trans h hb
  | cons o os ih =>
    obtain ⟨ha, hle, ho, hos⟩ := h
    exact ⟨ha, hle, ho, ih hos⟩

namespace Attach

def Entry.starts : Entry → List Nat
  | .stmt p => p.node.starts
  | .comment c => [c.start]

lemma Shelf.starts_add (s : Shelf) (e : Entry) :
    (startsIn (s.add e).stmts.reverse).Sublist
      (startsIn s.stmts.reverse ++ e.starts) := by
  have hpush (p : Placed) : startsIn (s.push p).stmts.reverse =
      startsIn s.stmts.reverse ++ p.node.starts := by
    simp [Shelf.push, startsIn, Placed.starts_node, Placed.inner]
  cases e with
  | stmt p =>
    rw [Shelf.add, hpush]
    exact List.Sublist.refl _
  | comment c =>
    rw [Shelf.add]
    split
    · -- a comment that goes with a statement is no statement
      unfold Shelf.append
      split
      · next last earlier hs => simp [hs, startsIn, Placed.starts_node, Placed.inner]
      · simp [startsIn]
    · have hstarts : (Shelf.statement c).node.starts = [c.start] := by
        simp [Placed.starts_node, Placed.inner, Shelf.statement, Shape.children, Shape.kind,
          Kind.isStmt]
      rw [hpush, hstarts]
      exact List.Sublist.refl _

lemma Shelf.starts_foldl (s : Shelf) (es : List Entry) :
    (startsIn (es.foldl Shelf.add s).stmts.reverse).Sublist
      (startsIn s.stmts.reverse ++ es.flatMap Entry.starts) := by
  induction es generalizing s with
  | nil => simp
  | cons e es ih =>
    refine (ih (s.add e)).trans ?_
    rw [List.flatMap_cons, ← List.append_assoc]
    exact (s.starts_add e).append_right _

lemma entries_cons_nil (p : Placed) (ps : List Placed) :
    entries (p :: ps) [] = .stmt p :: entries ps [] := by
  cases ps <;> simp [entries]

lemma rising_entries {a b : Nat} {os : List Occupant} {cs : List Comment} (h : Lined a os b)
    (hp : cs.Pairwise fun c d => c.start < d.start) (hc : ∀ c ∈ cs, a ≤ c.start ∧ c.start < b)
    (hfree : ∀ c ∈ cs, ∀ o ∈ os, covers o c = false) :
    Rising a ((entries (os.map (·.stmt)) cs).flatMap Entry.starts) b := by
  induction os generalizing a cs with
  | nil =>
    have hstarts : (entries [] cs).flatMap Entry.starts = cs.map (·.start) := by
      rw [entries, List.flatMap_map]
      exact List.flatMap_pure_eq_map _ _
    rw [List.map_nil, hstarts]
    exact ⟨List.pairwise_map.2 hp, List.forall_mem_map.2 hc⟩
  | cons o os iho =>
    obtain ⟨ha, hle, ho, hos⟩ := h
    have hnext {a : Nat} {cs : List Comment} (ha : a ≤ o.stmt.span.start)
        (hp : cs.Pairwise fun c d => c.start < d.start)
        (hc : ∀ c ∈ cs, o.stop ≤ c.start ∧ c.start < b)
        (hfree : ∀ c ∈ cs, ∀ o' ∈ os, covers o' c = false) :
        Rising a (o.stmt.node.starts ++ (entries (os.map (·.stmt)) cs).flatMap Entry.starts) b :=
      (ho.append (iho hos hp hc hfree) (Nat.le_refl _) hle hos.le).mono ha (Nat.le_refl b)
    induction cs generalizing a with
    | nil =>
      rw [List.map_cons, entries_cons_nil]
      exact hnext ha hp (by simp) (by simp)
    | cons c cs ihc =>
      obtain ⟨hlt, hp'⟩ := List.pairwise_cons.1 hp
      obtain ⟨⟨hac, hcb⟩, hcs⟩ := List.forall_mem_cons.1 hc
      obtain ⟨hfc, hfcs⟩ := List.forall_mem_cons.1 hfree
      rw [List.map_cons, entries]
      split
      · next hco =>
        have hcov := hfc o (by simp)
        simp only [covers, Bool.and_eq_false_iff, decide_eq_false_iff_not] at hcov
        have hstop : o.stop ≤ c.start := by omega
        refine hnext ha hp (List.forall_mem_cons.2 ⟨⟨hstop, hcb⟩, fun d hd => ?_⟩)
          fun d hd o' ho' => hfree d hd o' (by simp [ho'])
        exact ⟨hstop.trans (hlt d hd).le, (hcs d hd).2⟩
      · next hco =>
        have hrest : Rising (c.start + 1)
            ((entries ((o :: os).map (·.stmt)) cs).flatMap Entry.starts) b :=
          ihc hp' (fun d hd => ⟨hlt d hd, (hcs d hd).2⟩) hfcs (by omega)
        exact hrest.cons hac hcb

lemma of_mem_free {comments : List Comment} {opener closer : Token} {os : List Occupant}
    {c : Comment} (hc : c ∈ free comments opener closer os) :
    (opener.stop ≤ c.start ∧ c.start < closer.start) ∧ ∀ o ∈ os, covers o c = false := by
  have := (List.mem_filter.1 hc).2
  simpa only [Bool.and_eq_true, decide_eq_true_eq, Bool.not_eq_true', List.any_eq_false,
    Bool.not_eq_true] using this

lemma rising_free {comments : List Comment} {opener closer : Token} {os : List Occupant}
    (hp : comments.Pairwise fun c d => c.start < d.start) (h : Lined opener.stop os closer.start) :
    Rising opener.stop
      ((entries (os.map (·.stmt)) (free comments opener closer os)).flatMap Entry.starts)
      closer.start := by
  exact rising_entries h (hp.sublist List.filter_sublist) (fun c hc => (of_mem_free hc).1)
    fun c hc => (of_mem_free hc).2

lemma rising_attach {comments : List Comment} {opener closer : Token} {os : List Occupant}
    {qs : List Placed} {lead : Option String} (hp : comments.Pairwise fun c d => c.start < d.start)
    (h : Lined opener.stop os closer.start) (hat : attach comments opener closer os = (qs, lead)) :
    Rising opener.stop (startsIn qs) closer.start := by
  obtain ⟨rfl, -⟩ := Prod.mk.inj hat
  refine (rising_free hp h).sublist ((Shelf.starts_foldl ⟨[], none, opener.line⟩ _).trans ?_)
  exact List.Sublist.refl _

end Attach

end ParallelTests
