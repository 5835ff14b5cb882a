import ParallelTests.Proofs.Edit.Search
import ParallelTests.Proofs.Parse.File
import ParallelTests.Proofs.Parse.Front
import ParallelTests.Proofs.Print.Tokens

/-!
The search for a subtest, said without a search: of the nodes that are not hidden, it finds the first
in order that is a call on the handle.
-/

namespace ParallelTests

namespace Node

variable {handle method : String}

def hides (handle : String) : Address → Node → Bool
  | [], _ => false
  | i :: rest, n => i ∈ n.shadowed handle || n.children[i]?.any (hides handle rest)

def firstSubtest (handle method : String) (n : Node) : Option (Address × Node) :=
  (n.preorder []).find? fun p => !n.hides handle p.1 && (p.2.subtestCall? handle method).isSome

lemma preorder_below (at_ : Address) (n : Node) :
    n.preorder at_ = (n.preorder []).map fun p => (at_ ++ p.1, p.2) := by
  induction hw : n.weight using Nat.strong_induction_on generalizing at_ n with
  | _ w ih =>
    subst hw
    rw [preorder_eq, preorder_eq [], List.map_cons, List.append_nil, List.map_flatMap]
    congr 1
    apply List.flatMap_congr
    intro c hc
    have hlt := weight_lt_of_mem_children (List.fst_mem_of_mem_zipIdx hc)
    rw [ih _ hlt _ _ rfl, ih _ hlt ([] ++ [c.2]) _ rfl, List.map_map]
    simp

lemma firstSubtest_eq (n : Node) : n.firstSubtest handle method =
    if (n.subtestCall? handle method).isSome then some ([], n)
    else n.children.zipIdx.findSome? fun c =>
      if c.2 ∈ n.shadowed handle then none
      else (c.1.firstSubtest handle method).map fun p => (c.2 :: p.1, p.2) := by
  rw [firstSubtest, preorder_eq, List.find?_cons]
  cases hs : (n.subtestCall? handle method).isSome with
  | true => simp [hides]
  | false =>
    simp only [Bool.and_false, List.find?_flatMap, Bool.false_eq_true, if_false,
      ← List.head?_filterMap]
    congr 1
    apply List.filterMap_congr
    rintro ⟨c, i⟩ hc
    have hget : n.children[i]? = some c := by simpa using List.mem_zipIdx_iff_getElem?.1 hc
    rw [preorder_below, List.find?_map]
    by_cases hm : i ∈ n.shadowed handle
    · simp [hides, hm]
    · simp only [Function.comp_def, if_neg hm, firstSubtest]
      simp [hides, hm, hget]

def Search.Clean (s : Search) (a : Address) : Prop := ∀ x ∈ s.hidden, a <+: x → x = a

structure Finds (handle method : String) (a : Address) (n : Node) (s : Search) (r : Bool × Search) :
    Prop where
  kept : ∀ x, (a <+: x → x = a) → (x ∈ r.2.hidden ↔ x ∈ s.hidden)
  going : r.1 = (decide (a ∈ s.hidden) || (n.firstSubtest handle method).isNone)
  found : r.2.found = if a ∈ s.hidden then s.found else
    ((n.firstSubtest handle method).map fun p => (a ++ p.1, p.2)).or s.found

def firstAbreast (handle method : String) (a : Address) (s : Search) (i : Nat) (cs : List Node) :
    Option (Address × Node) :=
  (cs.zipIdx i).findSome? fun c =>
    if s.hidden.contains (a ++ [c.2]) then none
    else (c.1.firstSubtest handle method).map fun p => (c.2 :: p.1, p.2)

lemma Chain.finds {a : Address} {i : Nat} {cs : List Node} {s : Search} {r : Bool × Search}
    (h : Chain (fun a n s r => s.Clean a → Finds handle method a n s r) a i cs s r)
    (hs : ∀ j, i ≤ j → s.Clean (a ++ [j])) :
    (∀ x, (∀ j, i ≤ j → a ++ [j] <+: x → x = a ++ [j]) → (x ∈ r.2.hidden ↔ x ∈ s.hidden)) ∧
      r.1 = (firstAbreast handle method a s i cs).isNone ∧
      r.2.found = ((firstAbreast handle method a s i cs).map fun p => (a ++ p.1, p.2)).or s.found := by
  induction h with
  | nil => simp [firstAbreast]
  | @halt i c cs s s' h =>
    have hf := h (hs i (Nat.le_refl i))
    have hgoing := hf.going
    rw [eq_comm, Bool.or_eq_false_iff, decide_eq_false_iff_not] at hgoing
    obtain ⟨p, hp⟩ := Option.isSome_iff_exists.1 (Option.isNone_eq_false_iff.1 hgoing.2)
    have hfirst : firstAbreast handle method a s i (c :: cs) = some (i :: p.1, p.2) := by
      simp [firstAbreast, hgoing.1, hp]
    refine ⟨fun x hx => hf.kept x (hx i (Nat.le_refl i)), ?_, ?_⟩
    · rw [hfirst]
      rfl
    · rw [hfirst, hf.found, if_neg hgoing.1, hp]
      simp
  | @next i c cs s s' r h _ ih =>
    have hf := h (hs i (Nat.le_refl i))
    -- nothing but what is below the child has been hidden
    have hkept (x : Address) (j : Nat) (hj : i + 1 ≤ j) (hx : a ++ [j] <+: x) :
        x ∈ s'.hidden ↔ x ∈ s.hidden := by
      apply hf.kept
      intro hx'
      have := eq_of_isPrefix_concat hx' hx
      omega
    have hnone : (if a ++ [i] ∈ s.hidden then none else
        (c.firstSubtest handle method).map fun p => (i :: p.1, p.2)) = none := by
      have hgoing := hf.going
      split
      · rfl
      · next hi => simpa [hi] using hgoing
    have hfirst : firstAbreast handle method a s i (c :: cs) =
        firstAbreast handle method a s' (i + 1) cs := by
      simp only [firstAbreast, List.contains_iff_mem, List.zipIdx_cons, List.findSome?_cons, hnone]
      simp only [← List.head?_filterMap]
      congr 1
      apply List.filterMap_congr
      rintro ⟨d, j⟩ hd
      have hj : i + 1 ≤ j := List.le_snd_of_mem_zipIdx hd
      simp only [hkept _ j hj (List.prefix_refl _)]
    have hfound : s'.found = s.found := by
      rw [hf.found]
      split
      · rfl
      · next hi =>
        rw [if_neg hi, Option.map_eq_none_iff] at hnone
        rw [hnone]
        rfl
    obtain ⟨hk, hg, hfo⟩ := ih fun j hj x hx hp => hs j (by omega) x ((hkept x j hj hp).1 hx) hp
    refine ⟨fun x hx => ?_, by rw [hfirst, hg], by rw [hfirst, hfo, hfound]⟩
    rw [hk x fun j hj => hx j (by omega)]
    exact hf.kept x (hx i (Nat.le_refl i))

lemma finds_of_walk {a : Address} {n : Node} {s : Search} {r : Bool × Search}
    (h : n.walk (searchStep handle method) a s = .ok r) (hs : s.Clean a) :
    Finds handle method a n s r := by
  refine walk_induct (M := fun a n s r => s.Clean a → Finds handle method a n s r) ?_ ?_ ?_ h hs
  · intro a n s s' hv hs
    unfold searchStep at hv
    split at hv
    · cases hv
    · next ha =>
      split at hv
      · next hcall =>
        cases hv
        have hfirst : n.firstSubtest handle method = some ([], n) := by
          rw [firstSubtest_eq, if_pos hcall]
        refine ⟨fun x hx => ?_, by simp [ha, hfirst], by simp [ha, hfirst]⟩
        simp only [List.mem_append, List.mem_map, or_iff_left_iff_imp]
        rintro ⟨i, -, rfl⟩
        simpa using hx (List.prefix_append _ _)
      · cases hv
  · intro a n s s' hv hs
    unfold searchStep at hv
    split at hv
    · next ha =>
      cases hv
      exact ⟨fun _ _ => Iff.rfl, by simp [ha], by simp [ha]⟩
    · split at hv <;> cases hv
  · intro a n s s' r hv hc hs
    unfold searchStep at hv
    split at hv
    · cases hv
    · next ha =>
      split at hv
      · cases hv
      · next hcall =>
        cases hv
        have hout (i : Nat) : a ++ [i] ∉ s.hidden := fun hm => by
          simpa using hs _ hm (List.prefix_append _ _)
        have hmem (i : Nat) :
            a ++ [i] ∈ s.hidden ++ (n.shadowed handle).map (a ++ [·]) ↔ i ∈ n.shadowed handle := by
          simp [hout]
        obtain ⟨hk, hg, hf⟩ := hc.finds fun j _ x hx hp => by
          rcases List.mem_append.1 hx with hx | hx
          · have := hs x hx ((List.prefix_append _ _).trans hp)
            have := hp.length_le
            simp_all
          · obtain ⟨i, -, rfl⟩ := List.mem_map.1 hx
            rw [eq_of_isPrefix_concat hp (List.prefix_refl _)]
        have hfirst : n.firstSubtest handle method = firstAbreast handle method a
            ⟨s.hidden ++ (n.shadowed handle).map (a ++ [·]), s.found⟩ 0 n.children := by
          rw [firstSubtest_eq, if_neg hcall, firstAbreast]
          simp only [List.contains_iff_mem, hmem]
        refine ⟨fun x hx => ?_, by simp [ha, hg, hfirst], by simp [ha, hf, hfirst]⟩
        rw [hk x fun j _ hj => ?_]
        · simp only [List.mem_append, List.mem_map, or_iff_left_iff_imp]
          rintro ⟨i, -, rfl⟩
          simpa using hx (List.prefix_append _ _)
        · rw [hx ((List.prefix_append _ _).trans hj)] at hj
          exact absurd hj.length_le (by simp)

lemma findSubtest_eq {n : Node} (h : n.Known) (at_ : Address) :
    n.findSubtest handle method at_ =
      .ok ((n.firstSubtest handle method).map fun p => (at_ ++ p.1, p.2)) := by
  obtain ⟨r, hr⟩ : ∃ r, n.walk (searchStep handle method) at_ {} = .ok r := h.walk_ok at_ _
  have hf := (finds_of_walk hr (by simp [Search.Clean])).found
  rw [findSubtest, hr, Except.map, hf]
  simp

/-- A statement `handle.method(...)`, with its call. -/
def IsSubtest (handle method : String) (n call : Node) : Prop :=
  n.shape = .exprStmt call ∧ ∃ callee args ellipsis x sel, call.shape = .call callee args ellipsis ∧
    callee.shape = .selector x sel ∧ x.shape = .ident handle ∧ sel.shape = .ident method

lemma subtestCall?_eq_some_iff {n call : Node} :
    n.subtestCall? handle method = some call ↔ IsSubtest handle method n call := by
  have hnamed (n : Node) (name : String) : n.isNamed name = true ↔ n.shape = .ident name := by
    cases hs : n.shape <;> simp [isNamed, ident?, hs]
  unfold subtestCall? IsSubtest
  constructor
  · intro h
    split at h
    · next call' hn =>
      split at h
      · next callee args ellipsis hc =>
        split at h
        · next x sel hs =>
          split at h
          · next hand =>
            obtain rfl := Option.some.inj h
            obtain ⟨hx, hsel⟩ := Bool.and_eq_true_iff.1 hand
            exact ⟨hn, _, _, _, _, _, hc, hs, (hnamed _ _).1 hx, (hnamed _ _).1 hsel⟩
          · cases h
        · cases h
      · cases h
    · cases h
  · rintro ⟨hn, callee, args, ellipsis, x, sel, hc, hs, hx, hsel⟩
    simp [hn, hc, hs, (hnamed _ _).2 hx, (hnamed _ _).2 hsel]

def Hidden (handle : String) (body : Node) (a : Address) : Prop :=
  ∃ p i m, p ++ [i] <+: a ∧ body.at? p = some m ∧ i ∈ m.shadowed handle

lemma hides_eq_true_iff {a : Address} {n : Node} :
    n.hides handle a = true ↔ n.Hidden handle a := by
  induction a generalizing n with
  | nil => simp [hides, Hidden]
  | cons j a ih =>
    rw [hides, Bool.or_eq_true, decide_eq_true_eq, Option.any_eq_true]
    constructor
    · rintro (hj | ⟨c, hc, h⟩)
      · exact ⟨[], j, n, by simp, rfl, hj⟩
      · obtain ⟨p, i, m, hp, hm, hi⟩ := ih.1 h
        exact ⟨j :: p, i, m, by simpa using hp, by rw [at?_cons, hc, Option.bind_some, hm], hi⟩
    · rintro ⟨p, i, m, hp, hm, hi⟩
      cases p with
      | nil =>
        obtain rfl := Option.some.inj hm
        obtain ⟨rfl, -⟩ := List.cons_prefix_cons.1 hp
        exact .inl hi
      | cons k p =>
        obtain ⟨rfl, hrest⟩ := List.cons_prefix_cons.1 hp
        obtain ⟨c, hc, hm⟩ := Option.bind_eq_some_iff.1 hm
        exact .inr ⟨c, hc, ih.2 ⟨p, i, m, hrest, hm, hi⟩⟩

/-- A node that is a call on the handle and is not hidden. -/
def Calls (handle method : String) (body : Node) (p : Address × Node) : Prop :=
  ¬body.Hidden handle p.1 ∧ ∃ call, IsSubtest handle method p.2 call

lemma calls_iff {body : Node} {p : Address × Node} : body.Calls handle method p ↔
    (!body.hides handle p.1 && (p.2.subtestCall? handle method).isSome) = true := by
  rw [Calls, ← hides_eq_true_iff, Bool.and_eq_true, Option.isSome_iff_exists, Bool.not_eq_true',
    Bool.not_eq_true]
  simp only [subtestCall?_eq_some_iff]

/-! The order in which the statements of a source start. -/

lemma starts_eq_preorder (a : Address) (n : Node) : n.starts = (n.preorder a).flatMap fun p =>
    if p.2.kind.isStmt then p.2.span.toList.map (·.start) else [] := by
  induction hw : n.weight using Nat.strong_induction_on generalizing a n with
  | _ w ih =>
    subst hw
    rw [starts_eq, preorder_eq, List.flatMap_cons, List.flatMap_assoc]
    congr 1
    rw [← List.zipIdx_map_fst 0 n.children, List.flatMap_map, List.zipIdx_map_fst]
    apply List.flatMap_congr
    rintro ⟨c, i⟩ hc
    exact ih _ (weight_lt_of_mem_children (List.fst_mem_of_mem_zipIdx hc)) _ _ rfl

lemma starts_sublist {a : Address} {n m : Node} (h : n.at? a = some m) :
    m.starts.Sublist n.starts := by
  induction a generalizing n with
  | nil => exact Option.some.inj h ▸ List.Sublist.refl _
  | cons i a ih =>
    obtain ⟨c, hc, hm⟩ := Option.bind_eq_some_iff.1 h
    rw [starts_eq n]
    refine (ih hm).trans (.trans ?_ (List.sublist_append_right _ _))
    rw [List.flatMap_def]
    exact List.sublist_flatten_of_mem (List.mem_map_of_mem (List.mem_of_getElem? hc))

/-- One node starts before another. -/
def StartsBefore (n m : Node) : Prop :=
  ∃ s t, n.span = some s ∧ m.span = some t ∧ s.start < t.start

lemma exists_span_of_spanned {size : Nat} {a : Address} {n m : Node} (h : Spanned size n)
    (hm : n.at? a = some m) : ∃ s, m.span = some s := by
  induction a generalizing n with
  | nil =>
    obtain rfl := Option.some.inj hm
    cases h with
    | @mk _ span hs => exact ⟨span, hs⟩
  | cons i a ih =>
    obtain ⟨c, hc, hm⟩ := Option.bind_eq_some_iff.1 hm
    cases h with
    | mk _ _ _ hcs => exact ih (hcs c (List.mem_of_getElem? hc)) hm

lemma startsBefore_of_parse {src : Source} {file body : Node} {c : Address}
    (h : src.parse = .ok file) (hb : file.at? c = some body) :
    ((body.preorder []).filter (·.2.kind.isStmt)).Pairwise fun p q => p.2.StartsBefore q.2 := by
  have hparse := Source.parse_eq_ok_iff.1 h
  have hspanned : Spanned src.size file := by
    have := parse?_sure src
    rw [hparse] at this
    exact this.2
  have hspan : ∀ p ∈ body.preorder [], ∃ s, p.2.span = some s := by
    rintro ⟨a, m⟩ hp
    obtain ⟨rel, -, hm⟩ := mem_preorder.1 hp
    exact exists_span_of_spanned hspanned (a := c ++ rel) (by rw [at?_append, hb]; exact hm)
  have hrising := (Source.rising_of_parse hparse).pairwise.sublist (starts_sublist hb)
  rw [starts_eq_preorder [], List.pairwise_flatMap] at hrising
  refine List.pairwise_filter.2 (hrising.2.imp_of_mem fun {p q} hp hq hpq hsp hsq => ?_)
  obtain ⟨s, hs⟩ := hspan p hp
  obtain ⟨t, ht⟩ := hspan q hq
  exact ⟨s, t, hs, ht, hpq s.start (by simp [hsp, hs]) t.start (by simp [hsq, ht])⟩

lemma IsSubtest.isStmt {n call : Node} (h : IsSubtest handle method n call) :
    n.kind.isStmt = true := by
  rw [kind, h.1]
  rfl

lemma of_firstSubtest {body : Node} {p : Address × Node}
    (h : body.firstSubtest handle method = some p) : body.Calls handle method p ∧
      ∃ before after, body.preorder [] = before ++ p :: after ∧
        ∀ q ∈ before, ¬body.Calls handle method q := by
  obtain ⟨hcall, before, after, hsplit, hbefore⟩ := List.find?_eq_some_iff_append.1 h
  refine ⟨calls_iff.2 hcall, before, after, hsplit, fun q hq hc => ?_⟩
  have := hbefore q hq
  rw [calls_iff.1 hc] at this
  cases this

/-- The search finds the first call on the handle that is not hidden, in the order of a walk. In a
tree that was read from a source, it is also the one that starts first. -/
theorem findSubtest_exact {body : Node} (h : body.Known) (handle method : String) (at_ : Address) :
    ∃ found, body.findSubtest handle method at_ = .ok (found.map fun p => (at_ ++ p.1, p.2)) ∧
      (found = none ↔ ∀ p ∈ body.preorder [], ¬body.Calls handle method p) ∧
      (∀ p, found = some p → body.Calls handle method p ∧
        (∃ call, p.2.subtestCall? handle method = some call ∧ IsSubtest handle method p.2 call) ∧
        ∃ before after, body.preorder [] = before ++ p :: after ∧
          ∀ q ∈ before, ¬body.Calls handle method q) ∧
      ∀ (src : Source) (file : Node) (c : Address), src.parse = .ok file → file.at? c = some body →
        ((body.preorder []).filter (·.2.kind.isStmt)).Pairwise (fun p q => p.2.StartsBefore q.2) ∧
        ∀ p, found = some p → ∀ q ∈ body.preorder [], body.Calls handle method q →
          q = p ∨ p.2.StartsBefore q.2 := by
  refine ⟨_, findSubtest_eq h at_, ?_, fun p hp => ?_, fun src file c hparse hb => ?_⟩
  · rw [firstSubtest, List.find?_eq_none]
    simp only [calls_iff]
  · obtain ⟨hcalls, hfirst⟩ := of_firstSubtest hp
    obtain ⟨call, hsub⟩ := hcalls.2
    exact ⟨hcalls, ⟨call, subtestCall?_eq_some_iff.2 hsub, hsub⟩, hfirst⟩
  · have hpair := startsBefore_of_parse hparse hb
    refine ⟨hpair, fun p hp q hq hcalls => ?_⟩
    obtain ⟨⟨-, call, hsub⟩, before, after, hsplit, hbefore⟩ := of_firstSubtest hp
    obtain ⟨call', hsub'⟩ := hcalls.2
    rw [hsplit, List.mem_append, List.mem_cons] at hq
    rcases hq with hq | rfl | hq
    · exact absurd hcalls (hbefore q hq)
    · exact .inl rfl
    · rw [hsplit, List.filter_append,
        List.filter_cons_of_pos (p := fun p : Address × Node => p.2.kind.isStmt) hsub.isStmt] at hpair
      refine .inr ((List.pairwise_cons.1 (List.pairwise_append.1 hpair).2.1).1 q ?_)
      exact List.mem_filter.2 ⟨hq, hsub'.isStmt⟩

end Node

def shadowedSource : Source :=
  .ofString "a_test.go" ("package p\nfunc TestA(t *T) \x7b\n\tif ok() \x7b\n\t\tt := wrap(t)\n" ++
    "\t\tt.Run(\"x\", f)\n\t\x7d\n\tt.Run(\"a\", f)\n\tt.Run(\"b\", f)\n\x7d\n")

set_option maxRecDepth 100000 in
theorem findSubtest_exact_shadowedSource :
    ∃ file body, shadowedSource.parse = .ok file ∧ file.at? [0, 1] = some body ∧ body.Known ∧
      ∃ p, body.findSubtest "t" "Run" [] = .ok (some p) ∧ p.1 = [1] ∧
        ∀ q ∈ body.preorder [], body.Calls "t" "Run" q → q = p ∨ p.2.StartsBefore q.2 := by
  have h : ∃ file, shadowedSource.parse = .ok file ∧
      ((file.at? [0, 1]).bind fun body => (body.findSubtest "t" "Run" []).toOption.bind
        (Option.map Prod.fst)) = some [1] := Source.exists_of_parse (by decide +kernel)
  obtain ⟨file, hfile, h⟩ := h
  obtain ⟨body, hb, h⟩ := Option.bind_eq_some_iff.1 h
  obtain ⟨found, hf, h⟩ := Option.bind_eq_some_iff.1 h
  obtain ⟨p, rfl, hp⟩ := Option.map_eq_some_iff.1 h
  have hfound := Except.toOption_eq_some.1 hf
  have hformed := (Source.lies_of_parse (Source.parse_eq_ok_iff.1 hfile)).2.1
  have hknown : body.Known := Node.known_of_shaped (hformed.at? hb)
  obtain ⟨found, hsearch, -, -, hread⟩ := Node.findSubtest_exact hknown "t" "Run" []
  rw [hfound, Except.ok.injEq] at hsearch
  obtain ⟨p', rfl, rfl⟩ := Option.map_eq_some_iff.1 hsearch.symm
  exact ⟨file, body, hfile, hb, hknown, _, hfound, hp, (hread _ file [0, 1] hfile hb).2 p' rfl⟩

end ParallelTests
