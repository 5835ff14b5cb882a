import ParallelTests.Proofs.Scan.Follow

namespace ParallelTests.Scan

open Rebase

def Says (src : List Char) (a b : Nat) (text : List Char) (ss : List Sign) : Prop :=
  ∀ rest, Follows src b rest →
    signs (text ++ rest) = (signs rest).map (ss ++ ·) ∧ Follows src a (text ++ rest)

variable {src : List Char} {a b m : Nat} {ms : List Mark}

namespace Says

lemma nil : Says src a a [] [] := by
  intro rest h
  simpa using h

lemma trans {x y : List Char} {ss ts : List Sign} (h : Says src a m x ss) (h' : Says src m b y ts) :
    Says src a b (x ++ y) (ss ++ ts) := by
  intro rest hr
  obtain ⟨hs', hf'⟩ := h' rest hr
  obtain ⟨hs, hf⟩ := h (y ++ rest) hf'
  refine ⟨?_, by rwa [List.append_assoc]⟩
  rw [List.append_assoc, hs, hs', Option.map_map]
  congr 1
  funext us
  simp

lemma blank {c : Char} {cs : List Char} (hc : src.drop a = c :: cs) (hb : isBlank c = true) :
    Says src a (a + 1) [c] [] := by
  intro rest hr
  exact ⟨by simp [signs_blank hb], hr.cons hc⟩

lemma lexeme {c : Char} {x cs : List Char} {l : Lexeme} (hc : src.drop a = c :: (x ++ cs))
    (hf : first c (x ++ cs) = .ok ⟨.lexeme l, x.length⟩) :
    Says src a (a + x.length + 1) (c :: x) [.lexeme l] := by
  intro rest hr
  exact ⟨signs_lexeme hc hf hr, hr.append (x := c :: x) hc⟩

lemma remark {c : Char} {x cs : List Char} (ha : Sync src a) (hc : src.drop a = c :: (x ++ cs))
    (hf : first c (x ++ cs) = .ok ⟨.comment, x.length⟩) :
    Says src a (a + x.length + 1) (c :: x) (Class.comment.signs (c :: x)) := by
  intro rest hr
  refine ⟨?_, hr.append (x := c :: x) hc⟩
  rcases comment_cases hf with hb | ⟨hl, _⟩
  · exact signs_isBlock hb rest
  · obtain ⟨ns, hn⟩ := ha
    exact signs_isLine hl (hr.line ns _ (hn.trans (.single (.item hc hf (by simp)))) hl)

lemma newline {new : List Char} (hn : ∀ c ∈ new, isBlank c = true) :
    Says src a b ('\n' :: new) [.newline] := by
  intro rest _
  refine ⟨?_, .of_endsLine (endsLine_newline _)⟩
  rw [List.cons_append, signs_newline, signs_blanks hn]
  rfl

end Says

lemma isPlain_of_isBlank {c : Char} (h : isBlank c = true) : isPlain c = true :=
  isPlain_of_ne (by decide) h

lemma Reach.skip {bs cs : List Char} (h : Reach src a ms b) (hb : ∀ c ∈ bs, isBlank c = true)
    (hc : cut src a b = bs ++ cs) :
    Reach src a [] (a + bs.length) ∧ Reach src (a + bs.length) ms b ∧
      cut src (a + bs.length) b = cs := by
  induction bs generalizing a with
  | nil => exact ⟨.refl (Nat.le_trans h.le h.le_length), h, hc⟩
  | cons d bs ih =>
    have hd := hb d (by simp)
    cases h with
    | refl => simp at hc
    | @step _ m _ ms' _ hop h =>
      have hle := h.le
      cases hop with
      | @blank c cs' hs hbl =>
        have hcut := cut_of_cons (x := []) hs hle
        rw [hcut] at hc
        obtain ⟨h₁, h₂, h₃⟩ := ih h (fun c hc => hb c (by simp [hc])) (List.cons.inj hc).2
        rw [List.length_cons, Nat.add_comm bs.length, ← Nat.add_assoc]
        exact ⟨.step (.blank hs hbl) h₁, h₂, h₃⟩
      | @item c x cs' k hs hf hk =>
        rw [cut_of_cons hs hle] at hc
        obtain ⟨rfl, _⟩ := List.cons.inj hc
        simp only [first_blank hd, Except.ok.injEq, Item.mk.injEq] at hf
        exact absurd hf.1.symm hk

theorem says_lines {old new : List Char} (hold : ∀ c ∈ old, isBlank c = true)
    (hnew : ∀ c ∈ new, isBlank c = true) (ha : Sync src a) (h : Reach src a ms b) :
    Says src a b (lines old new none (cut src a b)) (ms.flatMap Mark.signs) := by
  induction hn : b - a using Nat.strongRecOn generalizing a ms with
  | ind n ih =>
    subst hn
    cases h with
    | refl => simpa [lines] using Says.nil
    | @step _ m _ ms' ns hop h =>
      have hle := h.le
      have hlt := hop.lt
      have hm : Sync src m := ha.reach (.single hop)
      have hih := ih (b - m) (by omega) hm h rfl
      rw [List.flatMap_append]
      cases hop with
      | @blank c cs hc hb =>
        rw [cut_of_cons (x := []) hc hle, List.nil_append, ← List.singleton_append,
          lines_plain (by simpa using isPlain_of_isBlank hb)]
        exact (Says.blank hc hb).trans hih
      | @item c x cs k hc hf hk =>
        have hcut := cut_of_cons hc hle
        rw [Class.flatMap_marks]
        cases k with
        | blank => exact absurd rfl hk
        | lexeme l =>
          have hf' : first c (x ++ cut src (a + x.length + 1) b) = .ok ⟨.lexeme l, x.length⟩ := by
            rw [← drop_of_cons hc, drop_eq_cut_append hle] at hf
            simpa using first_of_stops stops_nil hf
          rw [hcut, lines_lexeme hf', ← List.cons_append]
          exact (Says.lexeme hc hf).trans hih
        | comment =>
          have hl : lines old new none (c :: (x ++ cut src (a + x.length + 1) b)) =
              c :: (x ++ lines old new none (cut src (a + x.length + 1) b)) := by
            rcases comment_cases hf with hb | ⟨hl, he⟩
            · exact lines_block hb _
            · rw [← drop_of_cons hc, drop_eq_cut_append hle] at he
              exact lines_line hl he.of_append
          rw [hcut, hl, ← List.cons_append]
          exact (Says.remark ha hc hf).trans hih
        | newline =>
          obtain ⟨rfl, hx⟩ := eq_newline_of_first hf
          obtain rfl := List.length_eq_zero_iff.1 hx
          rw [hcut, List.nil_append, lines_newline]
          split
          · next hp =>
            -- the white space that is replaced is passed over, so the rest starts behind it
            obtain ⟨t, ht⟩ := List.isPrefixOf_iff_prefix.1 (Bool.and_eq_true_iff.1 hp).2
            obtain ⟨h₁, h₂, h₃⟩ := h.skip hold ht.symm
            have hih' := ih (b - (a + 0 + 1 + old.length)) (by omega) (hm.reach h₁) h₂ rfl
            rw [← ht, List.drop_left, ← h₃, ← List.cons_append]
            exact (Says.newline hnew).trans hih'
          · rw [← List.singleton_append]
            exact (Says.newline (List.forall_mem_nil _)).trans hih

end ParallelTests.Scan
