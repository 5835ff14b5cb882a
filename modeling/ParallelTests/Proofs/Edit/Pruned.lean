import ParallelTests.Proofs.Edit.Search
import ParallelTests.Proofs.Print.Tokens

/-!
A walk said without the walk: the visitor is called on the nodes of the preorder, those below a node
it has skipped are left out, and the first stop is the last call.
-/

namespace ParallelTests

structure Call where
  place : Address × Node
  verdict : Verdict

/-- The call takes the nodes below its own from the walk. -/
def Call.Prunes (c : Call) (a : Address) : Prop :=
  c.verdict = .skip ∧ c.place.1 <+: a ∧ a ≠ c.place.1

instance (c : Call) (a : Address) : Decidable (c.Prunes a) :=
  inferInstanceAs (Decidable (_ ∧ _ ∧ _))

namespace Node

variable {σ : Type} {visit : Address → Node → σ → Verdict × σ}

/-- A visitor that also keeps a record of its calls. -/
def recording (visit : Address → Node → σ → Verdict × σ) (a : Address) (n : Node)
    (s : σ × List Call) : Verdict × σ × List Call :=
  let r := visit a n s.1
  (r.1, r.2, s.2 ++ [⟨(a, n), r.1⟩])

/-- The answers of a visitor to calls one after the other, each with the state the last one left. -/
inductive Answers (visit : Address → Node → σ → Verdict × σ) : σ → List Call → σ → Prop
  | nil {st : σ} : Answers visit st [] st
  | cons {p : Address × Node} {v : Verdict} {st st' st'' : σ} {cs : List Call}
      (h : visit p.1 p.2 st = (v, st')) (hc : Answers visit st' cs st'') :
      Answers visit st (⟨p, v⟩ :: cs) st''

inductive Visits (visit : Address → Node → σ → Verdict × σ) :
    List (Address × Node) → σ → List Call → Bool × σ → Prop
  | nil {st : σ} : Visits visit [] st [] (true, st)
  | stop {p : Address × Node} {ps : List (Address × Node)} {st st' : σ}
      (h : visit p.1 p.2 st = (.stop, st')) : Visits visit (p :: ps) st [⟨p, .stop⟩] (false, st')
  | skip {p : Address × Node} {ps : List (Address × Node)} {st st' : σ} {cs : List Call}
      {r : Bool × σ} (h : visit p.1 p.2 st = (.skip, st'))
      (hc : Visits visit (ps.filter fun q => ¬p.1 <+: q.1) st' cs r) :
      Visits visit (p :: ps) st (⟨p, .skip⟩ :: cs) r
  | enter {p : Address × Node} {ps : List (Address × Node)} {st st' : σ} {cs : List Call}
      {r : Bool × σ} (h : visit p.1 p.2 st = (.enter, st')) (hc : Visits visit ps st' cs r) :
      Visits visit (p :: ps) st (⟨p, .enter⟩ :: cs) r

variable {ps qs : List (Address × Node)} {st : σ} {cs : List Call} {r : Bool × σ}

lemma Visits.unique {cs' : List Call} {r' : Bool × σ} (h : Visits visit ps st cs r)
    (h' : Visits visit ps st cs' r') : cs = cs' ∧ r = r' := by
  induction h generalizing cs' r' with
  | nil =>
    cases h'
    exact ⟨rfl, rfl⟩
  | stop h =>
    cases h' with
    | stop h' => simp_all
    | skip h' => simp_all
    | enter h' => simp_all
  | skip h _ ih =>
    cases h' with
    | stop h' => simp_all
    | skip h' hc' =>
      obtain rfl := (Prod.mk.inj (h.symm.trans h')).2
      simpa using ih hc'
    | enter h' => simp_all
  | enter h _ ih =>
    cases h' with
    | stop h' => simp_all
    | skip h' => simp_all
    | enter h' hc' =>
      obtain rfl := (Prod.mk.inj (h.symm.trans h')).2
      simpa using ih hc'

lemma Visits.halt (h : Visits visit ps st cs r) (hr : r.1 = false) (qs : List (Address × Node)) :
    Visits visit (ps ++ qs) st cs r := by
  induction h generalizing qs with
  | nil => cases hr
  | stop h => exact .stop h
  | skip h _ ih =>
    rw [List.cons_append]
    apply Visits.skip h
    rw [List.filter_append]
    exact ih hr _
  | enter h _ ih => exact .enter h (ih hr qs)

lemma Visits.append {cs' : List Call} {r' : Bool × σ} (h : Visits visit ps st cs r)
    (hr : r.1 = true) (hq : ∀ p ∈ ps, ∀ q ∈ qs, ¬p.1 <+: q.1) (h' : Visits visit qs r.2 cs' r') :
    Visits visit (ps ++ qs) st (cs ++ cs') r' := by
  induction h with
  | nil => exact h'
  | stop h => cases hr
  | @skip p ps st st' cs r h _ ih =>
    rw [List.cons_append, List.cons_append]
    apply Visits.skip h
    have hkept : (qs.filter fun q => ¬p.1 <+: q.1) = qs := by
      rw [List.filter_eq_self]
      intro q hmem
      simpa using hq p (by simp) q hmem
    rw [List.filter_append, hkept]
    exact ih hr (fun p' hp' => hq p' (by simp [List.mem_of_mem_filter hp'])) h'
  | enter h _ ih => exact .enter h (ih hr (fun p' hp' => hq p' (by simp [hp'])) h')

lemma prefix_of_mem_preorder {a : Address} {n : Node} {p : Address × Node}
    (h : p ∈ n.preorder a) : a <+: p.1 := by
  obtain ⟨rel, he, -⟩ := mem_preorder.1 h
  exact ⟨rel, he.symm⟩

lemma not_prefix_of_mem_abreast {a : Address} {i j : Nat} (hij : i < j) {c : Node} {cs : List Node}
    {p q : Address × Node} (hp : p ∈ c.preorder (a ++ [i]))
    (hq : q ∈ (cs.zipIdx j).flatMap fun d => d.1.preorder (a ++ [d.2])) :
    ¬p.1 <+: q.1 ∧ ¬q.1 <+: p.1 := by
  obtain ⟨d, hd, hq⟩ := List.mem_flatMap.1 hq
  have hle := List.le_snd_of_mem_zipIdx hd
  have hpa := prefix_of_mem_preorder hp
  have hqa := prefix_of_mem_preorder hq
  constructor
  · intro h
    have := eq_of_isPrefix_concat (hpa.trans h) hqa
    omega
  · intro h
    have := eq_of_isPrefix_concat hpa (hqa.trans h)
    omega

lemma Chain.visits {a : Address} {i : Nat} {cs : List Node}
    (h : Chain (fun a n st r => ∃ calls, Visits visit (n.preorder a) st calls r) a i cs st r) :
    ∃ calls, Visits visit ((cs.zipIdx i).flatMap fun c => c.1.preorder (a ++ [c.2])) st calls r := by
  induction h with
  | nil => exact ⟨[], .nil⟩
  | halt h =>
    obtain ⟨calls, h⟩ := h
    exact ⟨calls, h.halt rfl _⟩
  | next h _ ih =>
    obtain ⟨calls, h⟩ := h
    obtain ⟨more, hmore⟩ := ih
    refine ⟨calls ++ more, h.append rfl (fun p hp q hq => ?_) hmore⟩
    exact (not_prefix_of_mem_abreast (Nat.lt_succ_self _) hp hq).1

theorem visits_of_walk {a : Address} {n : Node} (h : n.walk visit a st = .ok r) :
    ∃ calls, Visits visit (n.preorder a) st calls r := by
  refine walk_induct (M := fun a n st r => ∃ calls, Visits visit (n.preorder a) st calls r)
    ?_ ?_ ?_ h
  · intro a n st st' hv
    rw [preorder_eq]
    exact ⟨_, .stop hv⟩
  · intro a n st st' hv
    -- everything else in the preorder is below the root
    have hbelow : (n.children.zipIdx.flatMap fun c => c.1.preorder (a ++ [c.2])).filter
        (fun q => ¬a <+: q.1) = [] := by
      rw [List.filter_eq_nil_iff]
      intro q hq
      have := prefix_of_mem_preorder (a := a) (n := n) (by rw [preorder_eq]; exact .tail _ hq)
      simpa using this
    rw [preorder_eq]
    exact ⟨_, .skip hv (by rw [hbelow]; exact .nil)⟩
  · intro a n st st' r hv hc
    obtain ⟨calls, hc⟩ := hc.visits
    rw [preorder_eq]
    exact ⟨_, .enter hv hc⟩

lemma Visits.of_recording {s : σ × List Call} {r : Bool × σ × List Call}
    (h : Visits (recording visit) ps s cs r) :
    Visits visit ps s.1 cs (r.1, r.2.1) ∧ r.2.2 = s.2 ++ cs := by
  induction h with
  | nil => exact ⟨.nil, (List.append_nil _).symm⟩
  | @stop p ps s s' h =>
    obtain ⟨hv, rfl⟩ := Prod.mk.inj h
    exact ⟨.stop (Prod.ext hv rfl), by rw [← hv]⟩
  | @skip p ps s s' cs r h _ ih =>
    obtain ⟨hv, rfl⟩ := Prod.mk.inj h
    refine ⟨.skip (Prod.ext hv rfl) ih.1, ?_⟩
    rw [ih.2, hv, List.append_assoc]
    rfl
  | @enter p ps s s' cs r h _ ih =>
    obtain ⟨hv, rfl⟩ := Prod.mk.inj h
    refine ⟨.enter (Prod.ext hv rfl) ih.1, ?_⟩
    rw [ih.2, hv, List.append_assoc]
    rfl

lemma Visits.answers (h : Visits visit ps st cs r) : Answers visit st cs r.2 := by
  induction h with
  | nil => exact .nil
  | stop h => exact .cons h .nil
  | skip h _ ih => exact .cons h ih
  | enter h _ ih => exact .cons h ih

lemma Visits.sublist (h : Visits visit ps st cs r) : (cs.map Call.place).Sublist ps := by
  induction h with
  | nil => exact .slnil
  | stop h => exact (List.nil_sublist _).cons_cons _
  | skip h _ ih => exact (ih.trans List.filter_sublist).cons_cons _
  | enter h _ ih => exact ih.cons_cons _

lemma Visits.stopped_iff (h : Visits visit ps st cs r) :
    r.1 = false ↔ ∃ c ∈ cs, c.verdict = .stop := by
  induction h with
  | nil => simp
  | stop h => simp
  | skip h _ ih => simpa using ih
  | enter h _ ih => simpa using ih

lemma Visits.pairwise (h : Visits visit ps st cs r) :
    cs.Pairwise fun c _ => c.verdict ≠ .stop := by
  induction h with
  | nil => exact .nil
  | stop h => exact List.pairwise_singleton _ _
  | skip h _ ih => exact List.pairwise_cons.2 ⟨by simp, ih⟩
  | enter h _ ih => exact List.pairwise_cons.2 ⟨by simp, ih⟩

abbrev Descending (ps : List (Address × Node)) : Prop := ps.Pairwise fun p q => ¬q.1 <+: p.1

lemma Visits.shown (h : Visits visit ps st cs r) (hd : Descending ps) :
    ∃ cut, ps.filter (fun p => ∀ c ∈ cs, ¬c.Prunes p.1) = cs.map Call.place ++ cut ∧
      (r.1 = true → cut = []) := by
  induction h with
  | nil => exact ⟨[], rfl, fun _ => rfl⟩
  | @stop p ps _ _ h => exact ⟨ps, by simp [Call.Prunes], by simp⟩
  | @skip p ps _ _ cs r h hc ih =>
    obtain ⟨hp, hd⟩ := List.pairwise_cons.1 hd
    obtain ⟨cut, hcut, hr⟩ := ih (hd.sublist List.filter_sublist)
    refine ⟨cut, ?_, hr⟩
    have hself : ∀ c ∈ ⟨p, .skip⟩ :: cs, ¬c.Prunes p.1 := by
      rw [List.forall_mem_cons]
      refine ⟨fun hc => hc.2.2 rfl, fun c hmem hprune => ?_⟩
      have := List.mem_of_mem_filter (hc.sublist.subset (List.mem_map_of_mem hmem))
      exact hp _ this hprune.2.1
    rw [List.filter_cons_of_pos (by simpa using hself), List.map_cons, List.cons_append, ← hcut,
      List.filter_filter]
    congr 1
    apply List.filter_congr
    intro q hq
    have hne : q.1 ≠ p.1 := fun he => hp q hq (he ▸ List.prefix_refl _)
    simp [Call.Prunes, hne, Bool.and_comm]
  | @enter p ps _ _ cs r h hc ih =>
    obtain ⟨hp, hd⟩ := List.pairwise_cons.1 hd
    obtain ⟨cut, hcut, hr⟩ := ih hd
    refine ⟨cut, ?_, hr⟩
    have hself : ∀ c ∈ ⟨p, .enter⟩ :: cs, ¬c.Prunes p.1 := by
      rw [List.forall_mem_cons]
      refine ⟨fun hc => hc.2.2 rfl, fun c hmem hprune => ?_⟩
      exact hp _ (hc.sublist.subset (List.mem_map_of_mem hmem)) hprune.2.1
    rw [List.filter_cons_of_pos (by simpa using hself), List.map_cons, List.cons_append, ← hcut]
    simp [Call.Prunes]

lemma descending_preorder (a : Address) (n : Node) : Descending (n.preorder a) := by
  induction hw : n.weight using Nat.strong_induction_on generalizing a n with
  | _ w ih =>
    subst hw
    rw [preorder_eq]
    have habreast (cs : List Node) (i : Nat) (hcs : ∀ c ∈ cs, c ∈ n.children) :
        Descending ((cs.zipIdx i).flatMap fun c => c.1.preorder (a ++ [c.2])) := by
      induction cs generalizing i with
      | nil => exact .nil
      | cons c cs ihcs =>
        have hc := weight_lt_of_mem_children (hcs c (by simp))
        refine List.pairwise_append.2 ⟨ih _ hc _ _ rfl, ihcs (i + 1) (by simp_all), ?_⟩
        intro p hp q hq
        exact (not_prefix_of_mem_abreast (Nat.lt_succ_self i) hp hq).2
    refine List.pairwise_cons.2 ⟨fun q hq h => ?_, habreast _ 0 fun _ h => h⟩
    obtain ⟨⟨c, i⟩, -, hq⟩ := List.mem_flatMap.1 hq
    obtain ⟨x, hx⟩ := (prefix_of_mem_preorder hq).trans h
    have := congrArg List.length hx
    simp at this

lemma Visits.find {test : Address → Node → Bool} {found : Option (Address × Node)}
    {r : Bool × Option (Address × Node)} (h : Visits (fun a n found =>
      if test a n then (Verdict.stop, some (a, n)) else (.enter, found)) ps found cs r) :
    r.2 = (ps.find? fun p => test p.1 p.2).or found := by
  induction h with
  | nil => rfl
  | @stop p ps _ _ h =>
    split at h
    · next hp =>
      cases h
      rw [List.find?_cons_of_pos (p := fun p : Address × Node => test p.1 p.2) hp]
      rfl
    · cases h
  | skip h =>
    split at h <;> cases h
  | @enter p ps _ _ cs r h _ ih =>
    split at h
    · cases h
    · next hp =>
      cases h
      rw [ih, List.find?_cons_of_neg (p := fun p : Address × Node => test p.1 p.2) hp]

theorem findFirst_eq_ok {test : Address → Node → Bool} {a : Address} {n : Node}
    {found : Option (Address × Node)} (h : n.findFirst test a = .ok found) :
    found = (n.preorder a).find? fun p => test p.1 p.2 := by
  obtain ⟨r, hr, rfl⟩ := Except.map_eq_ok_iff.1 h
  obtain ⟨calls, hv⟩ := visits_of_walk hr
  rw [hv.find, Option.or_none]

lemma Known.findFirst_ok {n : Node} (h : n.Known) (test : Address → Node → Bool) (a : Address) :
    n.findFirst test a = .ok ((n.preorder a).find? fun p => test p.1 p.2) := by
  have hf : ∃ found, n.findFirst test a = .ok found := by
    obtain ⟨r, hr⟩ := h.walk_ok a none
    exact ⟨r.2, by rw [findFirst, hr]; rfl⟩
  obtain ⟨found, hf⟩ := hf
  rw [hf, findFirst_eq_ok hf]

theorem holds_eq_ok {n : Node} {a target : Address} {b : Bool} (h : n.holds a target = .ok b) :
    b = true ↔ ∃ rel m, n.at? rel = some m ∧ a ++ rel = target := by
  obtain ⟨found, hf, rfl⟩ := Except.map_eq_ok_iff.1 h
  rw [findFirst_eq_ok hf, List.find?_isSome]
  constructor
  · rintro ⟨⟨x, m⟩, hmem, hx⟩
    obtain ⟨rel, rfl, hm⟩ := mem_preorder.1 hmem
    exact ⟨rel, m, hm, by simpa using hx⟩
  · rintro ⟨rel, m, hm, rfl⟩
    exact ⟨(a ++ rel, m), mem_preorder.2 ⟨rel, rfl, hm⟩, by simp⟩

lemma Known.holds_ok {n : Node} (h : n.Known) (a target : Address) :
    ∃ b, n.holds a target = .ok b :=
  ⟨_, by rw [holds, h.findFirst_ok]; rfl⟩

/-- A walk visits the preorder without what is below the nodes it skips, up to the first stop, each
node once. So a search finds the first node of the preorder, and a tree holds itself and what is below
it. -/
theorem walk_pruned {n : Node} (h : n.Known) (visit : Address → Node → σ → Verdict × σ)
    (a : Address) (st : σ) :
    (∃ going st' calls cut, n.walk visit a st = .ok (going, st') ∧
      n.walk (recording visit) a (st, []) = .ok (going, st', calls) ∧
      Answers visit st calls st' ∧
      (n.preorder a).filter (fun p => ∀ c ∈ calls, ¬c.Prunes p.1) = calls.map Call.place ++ cut ∧
      (going = true → cut = []) ∧
      (calls.map fun c => c.place.1).Nodup ∧
      (calls.Pairwise fun c _ => c.verdict ≠ .stop) ∧
      (going = false ↔ ∃ c ∈ calls, c.verdict = .stop)) ∧
    (∀ test, n.findFirst test a = .ok ((n.preorder a).find? fun p => test p.1 p.2)) ∧
    ∀ target, ∃ b, n.holds a target = .ok b ∧
      (b = true ↔ ∃ rel m, n.at? rel = some m ∧ a ++ rel = target) := by
  refine ⟨?_, fun test => h.findFirst_ok test a, fun target => ?_⟩
  · obtain ⟨⟨going, st'⟩, hw⟩ : ∃ r, n.walk visit a st = .ok r := h.walk_ok a st
    obtain ⟨⟨going', st'', record⟩, hr⟩ : ∃ r, n.walk (recording visit) a (st, []) = .ok r :=
      h.walk_ok a (st, [])
    obtain ⟨calls, hv⟩ := visits_of_walk hw
    obtain ⟨calls', hv'⟩ := visits_of_walk hr
    -- the record does not change what the visitor answers
    obtain ⟨hv', hrecord⟩ := hv'.of_recording
    obtain ⟨rfl, he⟩ := hv.unique hv'
    obtain ⟨rfl, rfl⟩ := Prod.mk.inj he
    obtain rfl : record = calls := hrecord
    have hd := descending_preorder a n
    obtain ⟨cut, hcut, hgoing⟩ := hv.shown hd
    have hnodup : (record.map fun c => c.place.1).Nodup := by
      refine List.pairwise_map.2 ((List.pairwise_map.1 (hd.sublist hv.sublist)).imp ?_)
      intro c d hcd he
      exact hcd (he ▸ List.prefix_refl _)
    exact ⟨going, st', record, cut, hw, hr, hv.answers, hcut, hgoing, hnodup, hv.pairwise,
      hv.stopped_iff⟩
  · obtain ⟨b, hb⟩ := h.holds_ok a target
    exact ⟨b, hb, holds_eq_ok hb⟩

def restless (_ : Address) (_ : Node) (seen : Nat) : Verdict × Nat :=
  (if seen = 7 then .skip else if seen = 10 then .stop else .enter, seen + 1)

end Node

def loopSource : Source :=
  .ofString "a.go" "package p\nfunc f() \x7b\n\tg(h(x), y)\n\tfor z \x7b\n\t\tk(z)\n\t\x7d\n\x7d\n"

set_option maxRecDepth 100000 in
theorem walk_pruned_loopSource :
    ∃ file, loopSource.parse = .ok file ∧ file.Known ∧ ∃ calls cut,
      file.walk (Node.recording Node.restless) [] (0, []) = .ok (false, 11, calls) ∧
      (calls.map fun c => (c.place.1, c.verdict)) =
        [([], .enter), ([0], .enter), ([0, 0], .enter), ([0, 1], .enter), ([0, 1, 0], .enter),
          ([0, 1, 0, 0], .enter), ([0, 1, 0, 0, 0], .enter), ([0, 1, 0, 0, 1], .skip),
          ([0, 1, 0, 0, 2], .enter), ([0, 1, 1], .enter), ([0, 1, 1, 0], .stop)] ∧
      (file.preorder []).filter (fun p => ∀ c ∈ calls, ¬c.Prunes p.1) =
        calls.map Call.place ++ cut ∧
      file.findFirst (fun _ n => n.kind == .ident) [] =
        .ok ((file.preorder []).find? fun p => p.2.kind == .ident) ∧
      file.holds [] [0, 1, 0, 0, 1, 1] = .ok true := by
  have h : ∃ file, loopSource.parse = .ok file ∧
      (let run := (file.walk (Node.recording Node.restless) [] (0, [])).toOption
      run.map (fun r => (r.1, r.2.1)) = some (false, 11) ∧
        run.map (fun r => r.2.2.map fun c => (c.place.1, c.verdict)) =
          some [([], .enter), ([0], .enter), ([0, 0], .enter), ([0, 1], .enter), ([0, 1, 0], .enter),
            ([0, 1, 0, 0], .enter), ([0, 1, 0, 0, 0], .enter), ([0, 1, 0, 0, 1], .skip),
            ([0, 1, 0, 0, 2], .enter), ([0, 1, 1], .enter), ([0, 1, 1, 0], .stop)]) ∧
      (file.at? [0, 1, 0, 0, 1, 1]).isSome = true :=
    Source.exists_of_parse (by decide +kernel)
  obtain ⟨file, hfile, ⟨hrun, hcalls⟩, hat⟩ := h
  have hformed := (Source.lies_of_parse (Source.parse_eq_ok_iff.1 hfile)).2.1
  have hknown : file.Known := Node.known_of_shaped hformed
  obtain ⟨⟨going, st', calls, cut, -, hwalk, -, hcut, -⟩, hfind, hholds⟩ :=
    Node.walk_pruned hknown Node.restless [] 0
  rw [hwalk] at hrun hcalls
  obtain ⟨rfl, rfl⟩ := Prod.mk.inj (Option.some.inj hrun)
  have hcalls := Option.some.inj hcalls
  obtain ⟨m, hm⟩ := Option.isSome_iff_exists.1 hat
  obtain ⟨b, hb, hiff⟩ := hholds [0, 1, 0, 0, 1, 1]
  obtain rfl := hiff.2 ⟨_, m, hm, rfl⟩
  exact ⟨file, hfile, hknown, calls, cut, hwalk, hcalls, hcut, hfind _, hb⟩

end ParallelTests
