import ParallelTests.Proofs.Recast.Same
import ParallelTests.Proofs.Recast.Twins

/-!
The comments of a block and those of its copy go with the same statements, if between any two
statements the same comments stand in the same way on the lines.
-/

namespace ParallelTests

open Scan Attach

inductive Filed (cs cs' : List Comment) :
    Nat → Nat → Nat → Nat → List Occupant → List Occupant → Nat → Nat → Prop
  | nil {a line a' line' b b' : Nat}
      (h : notes line (between cs a b) = notes line' (between cs' a' b')) :
      Filed cs cs' a line a' line' [] [] b b'
  | cons {a line a' line' b b' : Nat} {o o' : Occupant} {os os' : List Occupant}
      (h : notes line (between cs a o.stmt.span.start) = notes line' (between cs' a' o'.stmt.span.start))
      (hs : SameShape o.stmt.node o'.stmt.node)
      (rest : Filed cs cs' o.stop o.stmt.span.endLine o'.stop o'.stmt.span.endLine os os' b b') :
      Filed cs cs' a line a' line' (o :: os) (o' :: os') b b'

variable {cs cs' : List Comment} {os os' : List Occupant} {a b a' b' m m' line line' : Nat}

lemma between_self (cs : List Comment) (a : Nat) : between cs a a = [] :=
  List.filter_eq_nil_iff.2 fun c _ => by simp

lemma Filed.touch (h : Filed cs cs' a line a' line' os os' b b')
    (hm : (os.head?.map (·.stmt.span.start)).getD b = m)
    (hm' : (os'.head?.map (·.stmt.span.start)).getD b' = m') (k k' : Nat) :
    Filed cs cs' m k m' k' os os' b b' := by
  cases h with
  | nil =>
    obtain rfl : b = m := hm
    obtain rfl : b' = m' := hm'
    exact .nil (by rw [between_self, between_self]; rfl)
  | @cons _ _ _ _ _ _ o o' _ _ _ hs rest =>
    obtain rfl : o.stmt.span.start = m := hm
    obtain rfl : o'.stmt.span.start = m' := hm'
    exact .cons (by rw [between_self, between_self]; rfl) hs rest

/-! ### The order of statements and comments -/

def spread (cs : List Comment) : Nat → List Occupant → Nat → List Attach.Entry
  | a, [], b => (between cs a b).map .comment
  | a, o :: os, b =>
    (between cs a o.stmt.span.start).map .comment ++ .stmt o.stmt :: spread cs o.stop os b

lemma entries_comments {p : Placed} {ps : List Placed} {xs ys : List Comment}
    (hx : ∀ c ∈ xs, c.start < p.span.start) (hy : ∀ c ∈ ys, p.span.start ≤ c.start) :
    entries (p :: ps) (xs ++ ys) = xs.map .comment ++ .stmt p :: entries ps ys := by
  induction xs with
  | nil =>
    cases ys with
    | nil => rw [List.nil_append, entries_cons_nil]; rfl
    | cons c ys =>
      rw [List.nil_append, entries, if_pos (hy c (by simp))]
      rfl
  | cons c xs ih =>
    obtain ⟨hc, hx⟩ := List.forall_mem_cons.1 hx
    rw [List.cons_append, entries, if_neg (Nat.not_le.2 hc), ih hx]
    rfl

lemma filter_split {cs : List Comment} (hc : cs.Pairwise fun c d => c.start < d.start)
    (p : Comment → Bool) (m : Nat) :
    cs.filter p = cs.filter (fun c => p c && c.start < m) ++ cs.filter fun c => p c && m ≤ c.start := by
  induction cs with
  | nil => rfl
  | cons c cs ih =>
    obtain ⟨hlt, hcs⟩ := List.pairwise_cons.1 hc
    have ih := ih hcs
    rcases Nat.lt_or_ge c.start m with hm | hm
    · cases hp : p c <;> simp [hp, hm, Nat.not_le.2 hm, ih]
    · -- the comments behind one that starts late start late, too
      have hnone : cs.filter (fun d => p d && d.start < m) = [] := by
        refine List.filter_eq_nil_iff.2 fun d hd => ?_
        have := hlt d hd
        simp
        omega
      rw [hnone, List.nil_append] at ih
      cases hp : p c <;> simp [hp, hm, Nat.not_lt.2 hm, ih, hnone]

lemma entries_eq_spread (hc : cs.Pairwise fun c d => c.start < d.start) (h : Lined a os b) :
    entries (os.map (·.stmt))
      (cs.filter fun c => a ≤ c.start && c.start < b && !os.any (covers · c)) = spread cs a os b := by
  induction os generalizing a with
  | nil => simp [entries, spread, between]
  | cons o os ih =>
    obtain ⟨hstart, hstop, -, hrest⟩ := h
    have hle := hrest.le
    have hlater (c : Comment) (hc : c.start < o.stop) : os.any (covers · c) = false := by
      refine List.any_eq_false.2 fun x hx => ?_
      have := hrest.le_start x hx
      simp [covers]
      omega
    have hbefore : cs.filter (fun c => (a ≤ c.start && c.start < b && !(o :: os).any (covers · c)) &&
        c.start < o.stmt.span.start) = between cs a o.stmt.span.start := by
      refine List.filter_congr fun c _ => ?_
      rcases Nat.lt_or_ge c.start o.stmt.span.start with hlt | hge
      · have hout : covers o c = false := by simp [covers, Nat.not_le.2 hlt]
        rw [List.any_cons, hout, hlater c (by omega)]
        simp [hlt]
        omega
      · simp [Nat.not_lt.2 hge]
    have hbehind : cs.filter (fun c => (a ≤ c.start && c.start < b && !(o :: os).any (covers · c)) &&
        o.stmt.span.start ≤ c.start) =
          cs.filter fun c => o.stop ≤ c.start && c.start < b && !os.any (covers · c) := by
      refine List.filter_congr fun c _ => ?_
      rcases Nat.lt_or_ge c.start o.stmt.span.start with hlt | hge
      · simp [Nat.not_le.2 hlt]
        omega
      · have hge' : a ≤ c.start := hstart.trans hge
        rcases Nat.lt_or_ge c.start o.stop with hlt | hge''
        · simp [covers, hge, hlt, Nat.not_le.2 hlt]
        · simp [covers, hge, hge', hge'', Nat.not_lt.2 hge'']
    rw [filter_split hc _ o.stmt.span.start, hbefore, hbehind, List.map_cons, entries_comments, ih hrest]
    · rfl
    · intro c hmem
      have := (List.mem_filter.1 hmem).2
      simp at this
      omega
    · intro c hmem
      have := (List.mem_filter.1 hmem).2
      simp at this
      omega

/-! ### What goes with what -/

structure Shelf.Level (s s' : Shelf) : Prop where
  stmts : List.Forall₂ (fun p q : Placed => SameShape p.node q.node) s.stmts s'.stmts
  lead : s'.lead = s.lead

namespace Shelf.Level

variable {s s' : Shelf} {p p' : Placed} {c c' : Comment}

lemma push (h : Level s s') (hp : SameShape p.node p'.node) : Level (s.push p) (s'.push p') := by
  exact ⟨.cons (hp.relaid rfl rfl hp.trailing_eq) h.stmts, h.lead⟩

lemma append (h : Level s s') (ht : c'.text = c.text) : Level (s.append c) (s'.append c') := by
  obtain ⟨stmts, lead, endLine⟩ := s
  obtain ⟨stmts', lead', endLine'⟩ := s'
  obtain ⟨hs, rfl⟩ := h
  cases hs with
  | nil => exact ⟨.nil, by simp [Shelf.append, ht]⟩
  | @cons p p' _ _ hp hps =>
    refine ⟨.cons (hp.relaid rfl rfl ?_) hps, rfl⟩
    cases hp with
    | mk _ htr _ =>
      replace htr : p'.layout.trailing = p.layout.trailing := htr
      simp [Placed.node, Node.layout, htr, ht]

lemma comments (h : Level s s') (hl : ∀ c ∈ cs, c.line ≤ c.endLine) (hl' : ∀ c ∈ cs', c.line ≤ c.endLine)
    (hn : notes s.endLine cs = notes s'.endLine cs') :
    Level ((cs.map Attach.Entry.comment).foldl Shelf.add s) ((cs'.map Attach.Entry.comment).foldl Shelf.add s') := by
  induction cs generalizing cs' s s' with
  | nil =>
    cases cs' with
    | nil => exact h
    | cons => cases hn
  | cons c cs ih =>
    cases cs' with
    | nil => cases hn
    | cons c' cs' =>
      obtain ⟨hc, hcs⟩ := List.forall_mem_cons.1 hl
      obtain ⟨hc', hcs'⟩ := List.forall_mem_cons.1 hl'
      simp only [notes, List.cons.injEq, Prod.mk.injEq, decide_eq_decide] at hn
      obtain ⟨⟨hline, ht⟩, hn⟩ := hn
      by_cases hs : c.line = s.endLine
      · have hs' := hline.1 hs
        have hadd : s.add (.comment c) = s.append c := if_pos hs
        have hadd' : s'.add (.comment c') = s'.append c' := if_pos hs'
        simp only [List.map_cons, List.foldl_cons, hadd, hadd']
        refine ih (h.append ht.symm) hcs hcs' ?_
        rwa [Shelf.endLine_append, Shelf.endLine_append, Nat.max_eq_right (hs ▸ hc),
          Nat.max_eq_right (hs' ▸ hc')]
      · have hs' := fun hs' => hs (hline.2 hs')
        have hadd : s.add (.comment c) = s.push (Shelf.statement c) := if_neg hs
        have hadd' : s'.add (.comment c') = s'.push (Shelf.statement c') := if_neg hs'
        simp only [List.map_cons, List.foldl_cons, hadd, hadd']
        refine ih (h.push (.mk ?_ rfl .nil)) hcs hcs' hn
        simp [Shelf.statement, Placed.node, Node.shape, ht]

lemma spread (h : Level s s') (hl : ∀ c ∈ cs, c.line ≤ c.endLine) (hl' : ∀ c ∈ cs', c.line ≤ c.endLine)
    (hf : Filed cs cs' a s.endLine a' s'.endLine os os' b b') :
    Level ((spread cs a os b).foldl Shelf.add s) ((spread cs' a' os' b').foldl Shelf.add s') := by
  have hbetween {cs : List Comment} (h : ∀ c ∈ cs, c.line ≤ c.endLine) (a b : Nat) :
      ∀ c ∈ between cs a b, c.line ≤ c.endLine := fun c hc => h c (List.mem_of_mem_filter hc)
  generalize hline : s.endLine = line at hf
  generalize hline' : s'.endLine = line' at hf
  induction hf generalizing s s' with
  | nil hn =>
    subst hline hline'
    exact h.comments (hbetween hl _ _) (hbetween hl' _ _) hn
  | cons hn hs _ ih =>
    subst hline hline'
    simp only [ParallelTests.spread, List.foldl_append, List.foldl_cons]
    exact ih ((h.comments (hbetween hl _ _) (hbetween hl' _ _) hn).push hs) rfl rfl

end Shelf.Level

theorem attach_same {o o' c c' : Token} (hcs : cs.Pairwise fun c d => c.start < d.start)
    (hcs' : cs'.Pairwise fun c d => c.start < d.start) (hl : ∀ c ∈ cs, c.line ≤ c.endLine)
    (hl' : ∀ c ∈ cs', c.line ≤ c.endLine) (ho : Lined o.stop os c.start)
    (ho' : Lined o'.stop os' c'.start)
    (hf : Filed cs cs' o.stop o.line o'.stop o'.line os os' c.start c'.start) :
    List.Forall₂ (fun p q : Placed => SameShape p.node q.node) (attach cs o c os).1
      (attach cs' o' c' os').1 ∧ (attach cs' o' c' os').2 = (attach cs o c os).2 := by
  have hlevel : Shelf.Level ⟨[], none, o.line⟩ ⟨[], none, o'.line⟩ := ⟨.nil, rfl⟩
  have h := hlevel.spread hl hl' hf
  rw [← entries_eq_spread hcs ho, ← entries_eq_spread hcs' ho'] at h
  exact ⟨List.rel_reverse h.stmts, h.lead⟩

end ParallelTests
