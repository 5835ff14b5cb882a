import ParallelTests.Proofs.Scan.Comment

/-!
Reading on in a text from one offset to another. What is read on the way is a list of marks; it is
determined by the two offsets, and any offset that is read past splits it.
-/

namespace ParallelTests.Scan

inductive Mark
  | newline
  | remark (text : List Char)
  | lexeme (start : Nat) (lexeme : Lexeme)
  deriving DecidableEq, Repr

def Mark.signs : Mark → List Sign
  | newline => [.newline]
  | remark text => Class.comment.signs text
  | lexeme _ l => [.lexeme l]

def Class.marks (a : Nat) (text : List Char) : Class → List Mark
  | .newline => [.newline]
  | .blank => []
  | .comment => [.remark text]
  | .lexeme l => [.lexeme a l]

lemma Class.flatMap_marks (k : Class) (a : Nat) (text : List Char) :
    (k.marks a text).flatMap Mark.signs = k.signs text := by
  cases k <;> simp [marks, Mark.signs, Class.signs]

inductive Hop (src : List Char) (a : Nat) : List Mark → Nat → Prop
  | blank {c : Char} {cs : List Char} (hc : src.drop a = c :: cs) (hb : isBlank c = true) :
      Hop src a [] (a + 1)
  | item {c : Char} {x cs : List Char} {k : Class} (hc : src.drop a = c :: (x ++ cs))
      (hf : first c (x ++ cs) = .ok ⟨k, x.length⟩) (hk : k ≠ .blank) :
      Hop src a (k.marks a (c :: x)) (a + x.length + 1)

inductive Reach (src : List Char) : Nat → List Mark → Nat → Prop
  | refl {a : Nat} (h : a ≤ src.length) : Reach src a [] a
  | step {a m b : Nat} {ms ns : List Mark} (hop : Hop src a ms m) (h : Reach src m ns b) :
      Reach src a (ms ++ ns) b

variable {src : List Char} {a b m : Nat} {ms ns : List Mark}

namespace Hop

lemma lt (h : Hop src a ms m) : a < m := by
  cases h <;> omega

lemma le_length (h : Hop src a ms m) : m ≤ src.length := by
  cases h with
  | blank hc | item hc =>
    have := congrArg List.length hc
    simp at this
    omega

lemma unique (h : Hop src a ms m) (h' : Hop src a ns b) : ms = ns ∧ m = b := by
  cases h with
  | blank hc hb =>
    cases h' with
    | blank => exact ⟨rfl, rfl⟩
    | item hd hf hk =>
      obtain ⟨rfl, _⟩ := List.cons.inj (hc.symm.trans hd)
      simp only [first_blank hb, Except.ok.injEq, Item.mk.injEq] at hf
      exact absurd hf.1.symm hk
  | item hc hf hk =>
    cases h' with
    | blank hd hb =>
      obtain ⟨rfl, _⟩ := List.cons.inj (hc.symm.trans hd)
      simp only [first_blank hb, Except.ok.injEq, Item.mk.injEq] at hf
      exact absurd hf.1.symm hk
    | item hd hf' _ =>
      obtain ⟨rfl, he⟩ := List.cons.inj (hc.symm.trans hd)
      rw [he, hf', Except.ok.injEq, Item.mk.injEq] at hf
      obtain ⟨rfl, hl⟩ := hf
      obtain ⟨rfl, _⟩ := List.append_inj he hl.symm
      exact ⟨rfl, rfl⟩

lemma marks_cases (h : Hop src a ms m) : ms = [] ∨ ∃ mark, ms = [mark] := by
  cases h with
  | blank => exact .inl rfl
  | @item _ _ _ k => cases k <;> simp [Class.marks]

lemma remark_inv {text : List Char} (h : Hop src a [.remark text] m) :
    ∃ c x cs, text = c :: x ∧ src.drop a = c :: (x ++ cs) ∧
      first c (x ++ cs) = .ok ⟨.comment, x.length⟩ ∧ m = a + x.length + 1 := by
  generalize hm : [Mark.remark text] = ms at h
  cases h with
  | blank => simp at hm
  | @item c x cs k hc hf =>
    cases k with
    | comment => exact ⟨c, x, cs, by simpa [Class.marks] using hm, hc, hf, rfl⟩
    | _ => simp [Class.marks] at hm

lemma lexeme_inv {start : Nat} {l : Lexeme} (h : Hop src a [.lexeme start l] m) :
    ∃ c x cs, start = a ∧ src.drop a = c :: (x ++ cs) ∧
      first c (x ++ cs) = .ok ⟨.lexeme l, x.length⟩ ∧ m = a + x.length + 1 := by
  generalize hm : [Mark.lexeme start l] = ms at h
  cases h with
  | blank => simp at hm
  | @item c x cs k hc hf =>
    cases k with
    | lexeme l' =>
      simp only [Class.marks, List.cons.injEq, Mark.lexeme.injEq, and_true] at hm
      obtain ⟨rfl, rfl⟩ := hm
      exact ⟨c, x, cs, rfl, hc, hf, rfl⟩
    | _ => simp [Class.marks] at hm

lemma nil_inv (h : Hop src a [] m) : ∃ c cs, src.drop a = c :: cs ∧ isBlank c = true ∧ m = a + 1 := by
  generalize hm : [] = ms at h
  cases h with
  | blank hc hb => exact ⟨_, _, hc, hb, rfl⟩
  | @item c x cs k hc hf hk => cases k <;> simp_all [Class.marks]

end Hop

namespace Reach

lemma le (h : Reach src a ms b) : a ≤ b := by
  induction h with
  | refl => exact Nat.le_refl _
  | step hop _ ih => exact Nat.le_trans (Nat.le_of_lt hop.lt) ih

lemma le_length (h : Reach src a ms b) : b ≤ src.length := by
  induction h with
  | refl h => exact h
  | step _ _ ih => exact ih

lemma single (hop : Hop src a ms m) : Reach src a ms m := by
  simpa using Reach.step hop (.refl hop.le_length)

lemma trans (h : Reach src a ms m) (h' : Reach src m ns b) : Reach src a (ms ++ ns) b := by
  induction h with
  | refl => exact h'
  | step hop _ ih =>
    rw [List.append_assoc]
    exact .step hop (ih h')

lemma marks_eq_nil (h : Reach src a ms b) (hb : b ≤ a) : ms = [] := by
  cases h with
  | refl => rfl
  | step hop h =>
    have := h.le
    have := hop.lt
    omega

lemma divide (h : Reach src a (ms ++ ns) b) : ∃ m, Reach src a ms m ∧ Reach src m ns b := by
  generalize hall : ms ++ ns = all at h
  replace hall := hall.symm
  induction h generalizing ms with
  | @refl a ha =>
    obtain ⟨rfl, rfl⟩ := List.append_eq_nil_iff.1 hall.symm
    exact ⟨a, .refl ha, .refl ha⟩
  | @step a m b ms' ns' hop h ih =>
    cases ms with
    | nil => exact ⟨a, .refl (Nat.le_trans (Nat.le_of_lt hop.lt) hop.le_length), (show _ = ns from hall) ▸ .step hop h⟩
    | cons mark ms =>
      rcases hop.marks_cases with rfl | ⟨_, rfl⟩
      · obtain ⟨p, hp, hq⟩ := ih hall
        exact ⟨p, .step hop hp, hq⟩
      · obtain ⟨rfl, hr⟩ := List.cons.inj hall
        obtain ⟨p, hp, hq⟩ := ih hr
        exact ⟨p, .step hop hp, hq⟩

lemma exists_hop {mark : Mark} (h : Reach src a [mark] b) :
    ∃ p q, Reach src a [] p ∧ Hop src p [mark] q ∧ Reach src q [] b := by
  generalize hall : [mark] = all at h
  replace hall := hall.symm
  induction h with
  | refl => simp at hall
  | @step a m b ms' ns' hop h ih =>
    rcases hop.marks_cases with rfl | ⟨_, rfl⟩
    · obtain ⟨p, q, hp, hh, hq⟩ := ih hall
      exact ⟨p, q, .step hop hp, hh, hq⟩
    · obtain ⟨rfl, rfl⟩ := List.cons.inj hall
      exact ⟨a, m, .refl (Nat.le_trans (Nat.le_of_lt hop.lt) hop.le_length), hop, h⟩

lemma split (h : Reach src a ms m) (h' : Reach src a ns b) (hm : m ≤ b) :
    ∃ rest, ns = ms ++ rest ∧ Reach src m rest b := by
  induction h generalizing ns with
  | refl => exact ⟨ns, rfl, h'⟩
  | step hop h ih =>
    cases h' with
    | refl =>
      have := h.le
      have := hop.lt
      omega
    | step hop' h' =>
      obtain ⟨rfl, rfl⟩ := hop.unique hop'
      obtain ⟨rest, rfl, hr⟩ := ih h' hm
      exact ⟨rest, by rw [List.append_assoc], hr⟩

lemma unique (h : Reach src a ms b) (h' : Reach src a ns b) : ms = ns := by
  obtain ⟨rest, rfl, hr⟩ := h.split h' (Nat.le_refl b)
  simp [hr.marks_eq_nil (Nat.le_refl b)]

lemma start_mem (h : Reach src a ms b) {start : Nat} {l : Lexeme} (hm : .lexeme start l ∈ ms) :
    a ≤ start ∧ start < b := by
  induction h with
  | refl => simp at hm
  | @step a m b ms ns hop h ih =>
    have := h.le
    have := hop.lt
    rcases List.mem_append.1 hm with hm | hm
    · rcases hop.marks_cases with rfl | ⟨_, rfl⟩
      · simp at hm
      · obtain rfl := List.mem_singleton.1 hm
        obtain ⟨_, _, _, rfl, _⟩ := hop.lexeme_inv
        omega
    · have := ih hm
      omega

end Reach

def Sync (src : List Char) (a : Nat) : Prop := ∃ ms, Reach src 0 ms a

lemma sync_zero : Sync src 0 := ⟨[], .refl (Nat.zero_le _)⟩

lemma Sync.le_length (h : Sync src a) : a ≤ src.length := by
  obtain ⟨ms, hr⟩ := h
  exact hr.le_length

lemma Sync.reach (ha : Sync src a) (h : Reach src a ms b) : Sync src b := by
  obtain ⟨ns, hn⟩ := ha
  exact ⟨ns ++ ms, hn.trans h⟩

lemma Sync.to (ha : Sync src a) (hb : Sync src b) (h : a ≤ b) : ∃ ms, Reach src a ms b := by
  obtain ⟨ms, hm⟩ := ha
  obtain ⟨ns, hn⟩ := hb
  obtain ⟨rest, _, hr⟩ := hm.split hn h
  exact ⟨rest, hr⟩

end ParallelTests.Scan
