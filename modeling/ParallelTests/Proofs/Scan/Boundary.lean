import ParallelTests.Proofs.Scan.Number

namespace ParallelTests.Scan

open Text

lemma literalLength_pos {mark : Char} {cs : List Char} {n : Nat}
    (h : literalLength mark cs = some n) : 0 < n := by
  unfold literalLength at h
  split at h
  · simp at h
  · obtain ⟨k, _, rfl⟩ := Option.map_eq_some_iff.1 h
    omega
  · split at h
    · simp at h
      omega
    · split at h
      · simp at h
      · obtain ⟨k, _, rfl⟩ := Option.map_eq_some_iff.1 h
        omega

lemma literalLength_cons {mark c : Char} (hc : c ≠ '\\') (cs : List Char) :
    literalLength mark (c :: cs) =
      if c = mark then some 1 else if c = '\n' then none
        else (literalLength mark cs).map (· + 1) := by
  rw [literalLength.eq_3]
  · simp [hc]
  · intro _ _ he
    simp [hc] at he

lemma literalLength_append {mark : Char} (hm : mark ≠ '\\') {x y : List Char}
    (h : literalLength mark (x ++ y) = some x.length) (z : List Char) :
    literalLength mark (x ++ z) = some x.length := by
  induction hn : x.length using Nat.strongRecOn generalizing x with
  | ind n ih =>
    cases x with
    | nil => exact absurd (literalLength_pos h) (by simp)
    | cons c x =>
      subst hn
      by_cases hc : c = '\\'
      · subst hc
        cases x with
        | nil =>
          exfalso
          cases y with
          | nil => simp [literalLength, hm.symm] at h
          | cons d y => simp [literalLength] at h
        | cons d x =>
          simp only [List.cons_append, literalLength, Option.map_eq_some_iff] at h ⊢
          obtain ⟨k, hk, he⟩ := h
          obtain rfl : k = x.length := by
            simp only [List.length_cons] at he
            omega
          exact ⟨_, ih x.length (by grind) hk rfl, rfl⟩
      · rw [List.cons_append, literalLength_cons hc] at h ⊢
        split at h
        · next hm => simpa [hm] using h
        · next hm =>
          rw [if_neg hm]
          split at h
          · simp at h
          · next hl =>
            rw [if_neg hl]
            obtain ⟨k, hk, he⟩ := Option.map_eq_some_iff.1 h
            obtain rfl : k = x.length := by
              simp only [List.length_cons] at he
              omega
            rw [ih x.length (by simp) hk rfl]
            simp

lemma blockLength_append {x y : List Char} (h : blockLength (x ++ y) = some x.length)
    (z : List Char) : blockLength (x ++ z) = some x.length := by
  induction x with
  | nil =>
    exfalso
    rw [List.nil_append, List.length_nil] at h
    unfold blockLength at h
    split at h <;> simp at h
  | cons c x ih =>
    by_cases hs : c = '*' ∧ (x ++ y).head? = some '/'
    · obtain ⟨rfl, hy⟩ := hs
      cases x with
      | nil =>
        exfalso
        cases y with
        | nil => simp at hy
        | cons d y =>
          simp only [List.nil_append, List.head?_cons, Option.some.injEq] at hy
          subst hy
          simp [blockLength] at h
      | cons d x =>
        simp only [List.cons_append, List.head?_cons, Option.some.injEq] at hy
        subst hy
        simpa [blockLength] using h
    · have step {r : List Char} (hr : ¬(c = '*' ∧ r.head? = some '/')) :
          blockLength (c :: r) = (blockLength r).map (· + 1) := by
        rw [blockLength.eq_3]
        rintro t rfl rfl
        exact hr ⟨rfl, rfl⟩
      rw [List.cons_append, step hs, Option.map_eq_some_iff] at h
      obtain ⟨k, hk, he⟩ := h
      have hx : k = x.length := by
        simp only [List.length_cons] at he
        omega
      subst hx
      have hz : (x ++ z).head? = (x ++ y).head? := by
        cases x with
        | nil =>
          exfalso
          rw [List.nil_append, List.length_nil] at hk
          unfold blockLength at hk
          split at hk <;> simp at hk
        | cons d x => rfl
      rw [List.cons_append, step (hz ▸ hs), ih hk]
      simp

lemma rawLength_append {x y : List Char} (h : rawLength (x ++ y) = some x.length) (z : List Char) :
    rawLength (x ++ z) = some x.length := by
  simp only [rawLength] at h ⊢
  split at h
  · obtain ⟨x, d, rfl⟩ : ∃ x' d, x = x' ++ [d] := by
      rcases List.eq_nil_or_concat x with rfl | ⟨x', d, rfl⟩
      · simp at h
      · exact ⟨x', d, by simp⟩
    have hx : runLength (fun c => decide (c ≠ '\x60')) (x ++ d :: y) = x.length := by
      simpa using h
    have hz : runLength (fun c => decide (c ≠ '\x60')) (x ++ d :: z) = x.length := by
      rw [runLength_append_iff] at hx ⊢
      exact hx
    rw [List.append_assoc, List.singleton_append, hz, if_pos]
    · simp
    · simp
  · simp at h

lemma runeLength_append {x y : List Char} (h : runeLength (x ++ y) = some x.length)
    (z : List Char) : runeLength (x ++ z) = some x.length := by
  unfold runeLength at h
  split at h
  · simp at h
  · next hq =>
    have hx : x ≠ [] := by
      rintro rfl
      exact absurd (literalLength_pos h) (by simp)
    have hh : (x ++ z).head? = (x ++ y).head? := by
      obtain ⟨c, x, rfl⟩ := List.exists_cons_of_ne_nil hx
      rfl
    rw [runeLength, hh, if_neg hq]
    exact literalLength_append (by decide) h z

lemma no_stop_in_operator (o : Operator) : ∀ c ∈ o.chars.tail, isStop c = false := by
  have h : (Operator.all.all fun o => misses isStop o.chars.tail) = true := by decide
  exact fun c hc => not_of_misses (List.all_eq_true.1 h o (Operator.mem_all o)) hc

lemma no_chars_empty (o : Operator) : 0 < o.chars.length := by
  have h : ∀ o ∈ Operator.all, 0 < o.chars.length := by decide
  exact h o (Operator.mem_all o)

lemma isPrefixOf_of_stops {o : Operator} {x v w : List Char} {c : Char} (hw : Stops w)
    (h : o.chars.isPrefixOf (c :: (x ++ w)) = true) : o.chars.isPrefixOf (c :: (x ++ v)) = true := by
  rw [List.isPrefixOf_iff_prefix] at *
  have hx : o.chars <+: c :: x := by
    rcases List.prefix_or_prefix_of_prefix h (List.prefix_append (c :: x) w) with hp | hp
    · exact hp
    · obtain ⟨t, ht⟩ := hp
      cases t with
      | nil => exact ⟨[], by simpa using ht.symm⟩
      | cons d t =>
        exfalso
        have hd : d ∈ o.chars.tail := by
          rw [← ht]
          simp
        have hs : isStop d = true := by
          rw [← ht, List.cons_append, List.cons_prefix_cons, List.prefix_append_right_inj] at h
          obtain ⟨r, rfl⟩ := h.2
          exact hw d (by simp)
        rw [no_stop_in_operator o d hd] at hs
        simp at hs
  obtain ⟨t, ht⟩ := hx
  exact ⟨t ++ v, by rw [← List.append_assoc, ht, List.cons_append]⟩

lemma chars_of_ofHead? {o : Operator} {c : Char} {x y : List Char}
    (h : Operator.ofHead? (c :: (x ++ y)) = some o) (hl : o.chars.length - 1 = x.length) :
    o.chars = c :: x := by
  have hp := List.find?_some h
  rw [List.isPrefixOf_iff_prefix, ← List.cons_append] at hp
  have hlen : o.chars.length = (c :: x).length := by
    have := no_chars_empty o
    rw [List.length_cons]
    omega
  exact (List.prefix_of_prefix_length_le hp (List.prefix_append _ _) (by omega)).eq_of_length hlen

lemma operator_of_stops {c : Char} {x u v w : List Char} {l : Lexeme} (hw : Stops w)
    (h : operator c (x ++ (u ++ v)) = .ok ⟨.lexeme l, x.length⟩) :
    operator c (x ++ (u ++ w)) = .ok ⟨.lexeme l, x.length⟩ := by
  unfold operator at h
  split at h
  · next o ho =>
    simp only [Except.ok.injEq, Item.mk.injEq, Class.lexeme.injEq] at h
    obtain ⟨rfl, hl⟩ := h
    obtain ⟨_, as, bs, hall, has⟩ := List.find?_eq_some_iff_append.1 ho
    have hc := chars_of_ofHead? ho hl
    have ho' : Operator.ofHead? (c :: (x ++ (u ++ w))) = some o := by
      refine List.find?_eq_some_iff_append.2 ⟨?_, as, bs, hall, ?_⟩
      · rw [List.isPrefixOf_iff_prefix, hc, ← List.cons_append]
        exact List.prefix_append _ _
      · intro a ha
        have hn := has a ha
        simp only [Bool.not_eq_true', ← List.append_assoc] at hn ⊢
        rw [← Bool.not_eq_true] at hn ⊢
        exact fun hp => hn (isPrefixOf_of_stops hw hp)
    simp only [operator, ho', hl]
  · simp at h

lemma isWord_of_isStop {c : Char} (h : isStop c = true) : isWord c = false :=
  not_of_isStop (by decide) h

lemma isDigit_of_isStop {c : Char} (h : isStop c = true) : c.isDigit = false :=
  not_of_isStop (p := Char.isDigit) (by decide) h

lemma head_append {x u v w : List Char} (h : x ++ u ≠ []) :
    (x ++ (u ++ w)).head? = (x ++ (u ++ v)).head? := by
  cases x with
  | nil =>
    cases u with
    | nil => simp at h
    | cons d u => rfl
  | cons d x => rfl

lemma head_ne_of_stops {x u v w : List Char} {d : Char} (hd : isStop d = false) (hw : Stops w)
    (h : (x ++ (u ++ v)).head? ≠ some d) : (x ++ (u ++ w)).head? ≠ some d := by
  by_cases hx : x ++ u = []
  · obtain ⟨rfl, rfl⟩ := List.append_eq_nil_iff.1 hx
    intro he
    rw [hw d (by simpa using he)] at hd
    simp at hd
  · rwa [head_append hx (v := v)]

lemma startsNumber_of_stops {c : Char} {x u v w : List Char} (hw : Stops w)
    (h : startsNumber c (x ++ (u ++ v)) = true → numberLength c (x ++ (u ++ v)) = x.length) :
    startsNumber c (x ++ (u ++ w)) = startsNumber c (x ++ (u ++ v)) := by
  by_cases hx : x ++ u = []
  · obtain ⟨rfl, rfl⟩ := List.append_eq_nil_iff.1 hx
    have hw' : w.head?.any Char.isDigit = false := by
      rw [Option.any_eq_false]
      intro d hd
      simp [isDigit_of_isStop (hw d hd)]
    simp only [startsNumber, List.nil_append, hw', Bool.and_false, Bool.or_false] at h ⊢
    cases hc : c.isDigit with
    | true => simp
    | false =>
      simp only [hc, Bool.false_or] at h ⊢
      rw [eq_comm, ← Bool.not_eq_true]
      intro hv
      have hl := h hv
      simp only [Bool.and_eq_true, decide_eq_true_eq, Option.any_eq_true] at hv
      obtain ⟨rfl, d, hd, hdig⟩ := hv
      obtain ⟨v, rfl⟩ := List.head?_eq_some_iff.1 hd
      have hr : 0 < runLength isNumeral (d :: v) := runLength_cons_pos.2 (by simp [isNumeral, hdig])
      simp only [numberLength, if_true, pointTailLength, List.length_nil] at hl
      omega
  · simp only [startsNumber, head_append hx (v := v) (w := w)]

lemma token_take {c : Char} {x y : List Char} {make : String → Lexeme} :
    token c (x ++ y) x.length make = ⟨.lexeme (make (String.ofList (c :: x))), x.length⟩ := by
  simp [token]

lemma token_more {c : Char} {cs x : List Char} {more : Nat} {make : String → Lexeme} {l : Lexeme}
    (h : token c cs more make = ⟨.lexeme l, x.length⟩) : more = x.length := by
  simp only [token, Item.mk.injEq] at h
  exact h.2

lemma literal_of_append {c : Char} {x y z : List Char} {make : String → Lexeme} {l : Lexeme}
    {f : List Char → Option Nat} (hf : f (x ++ y) = some x.length → f (x ++ z) = some x.length)
    (h : literal c (x ++ y) make (f (x ++ y)) = .ok ⟨.lexeme l, x.length⟩) :
    literal c (x ++ z) make (f (x ++ z)) = .ok ⟨.lexeme l, x.length⟩ := by
  cases hm : f (x ++ y) with
  | none => simp [hm, literal] at h
  | some more =>
    simp only [hm, literal, Except.ok.injEq] at h
    obtain rfl := token_more h
    rw [token_take] at h
    simp only [hf hm, literal, Except.ok.injEq, token_take]
    exact h

theorem first_of_stops {c : Char} {x u v w : List Char} {l : Lexeme} (hw : Stops w)
    (h : first c (x ++ (u ++ v)) = .ok ⟨.lexeme l, x.length⟩) :
    first c (x ++ (u ++ w)) = .ok ⟨.lexeme l, x.length⟩ := by
  have hcons {a : Bool} {d : Char} (hd : isStop d = false)
      (hh : ¬(a && (x ++ (u ++ v)).head? = some d) = true) :
      ¬(a && (x ++ (u ++ w)).head? = some d) = true := by
    simp only [Bool.and_eq_true, decide_eq_true_eq, not_and] at hh ⊢
    exact fun ha => head_ne_of_stops hd hw (hh ha)
  unfold first at h ⊢
  by_cases hn : c = '\n'
  · rw [if_pos hn] at h
    cases h
  rw [if_neg hn] at h ⊢
  by_cases hb : isBlank c = true
  · rw [if_pos hb] at h
    cases h
  rw [if_neg hb] at h ⊢
  by_cases hl : (decide (c = '/') && decide ((x ++ (u ++ v)).head? = some '/')) = true
  · rw [if_pos hl] at h
    cases h
  rw [if_neg hl] at h
  rw [if_neg (hcons (by decide) hl)]
  by_cases hc : (decide (c = '/') && decide ((x ++ (u ++ v)).head? = some '*')) = true
  · rw [if_pos hc] at h
    split at h <;> cases h
  rw [if_neg hc] at h
  rw [if_neg (hcons (by decide) hc), startsNumber_of_stops (v := v) hw]
  · by_cases hs : startsNumber c (x ++ (u ++ v)) = true
    · rw [if_pos hs] at h ⊢
      simp only [Except.ok.injEq] at h ⊢
      have hm := token_more h
      rw [hm, token_take] at h
      rwa [settled_numberLength c x u v w hw hm, token_take]
    rw [if_neg hs] at h ⊢
    by_cases hi : isWordStart c = true
    · rw [if_pos hi] at h ⊢
      simp only [Except.ok.injEq] at h ⊢
      have hm := token_more h
      rw [hm, token_take] at h
      rwa [settled_runLength (fun _ => isWord_of_isStop) x u v w hw hm, token_take]
    rw [if_neg hi] at h ⊢
    by_cases hr : c = '\''
    · rw [if_pos hr] at h ⊢
      exact literal_of_append (fun hf => runeLength_append hf _) h
    rw [if_neg hr] at h ⊢
    by_cases hq : c = '"'
    · rw [if_pos hq] at h ⊢
      exact literal_of_append (fun hf => literalLength_append (by decide) hf _) h
    rw [if_neg hq] at h ⊢
    by_cases hw' : c = '\x60'
    · rw [if_pos hw'] at h ⊢
      exact literal_of_append (fun hf => rawLength_append hf _) h
    rw [if_neg hw'] at h ⊢
    by_cases hs' : c = ';'
    · rw [if_pos hs'] at h ⊢
      exact h
    rw [if_neg hs'] at h ⊢
    exact operator_of_stops hw h
  · intro hs
    rw [if_pos hs, Except.ok.injEq] at h
    exact token_more h

end ParallelTests.Scan
