import ParallelTests.Proofs.Scan.Lines
import ParallelTests.Proofs.Scan.Reach

/-!
Texts that can be read in place of the rest of a source. Such a text goes on as the source does and
then comes to a stop, so whatever stands before it reads as it does in the source.
-/

namespace ParallelTests.Scan

def cut (src : List Char) (a b : Nat) : List Char := (src.drop a).take (b - a)

structure Follows (src : List Char) (a : Nat) (rest : List Char) : Prop where
  agrees : ∃ u v w, src.drop a = u ++ v ∧ rest = u ++ w ∧ Stops w
  line : ∀ ms text, Reach src 0 (ms ++ [.remark text]) a → IsLine text → EndsLine rest

variable {src : List Char} {a b m : Nat} {ms : List Mark} {rest : List Char}

@[simp] lemma cut_self : cut src a a = [] := by
  simp [cut]

lemma cut_append (h : a ≤ m) (h' : m ≤ b) : cut src a m ++ cut src m b = cut src a b := by
  have hb : b - a = (m - a) + (b - m) := by omega
  rw [cut, cut, cut, hb, List.take_add, List.drop_drop, show a + (m - a) = m by omega]

lemma drop_eq_cut_append (h : a ≤ b) : src.drop a = cut src a b ++ src.drop b := by
  rw [cut, show src.drop b = (src.drop a).drop (b - a) by
    rw [List.drop_drop, show a + (b - a) = b by omega], List.take_append_drop]

lemma drop_of_cons {c : Char} {x cs : List Char} (h : src.drop a = c :: (x ++ cs)) :
    src.drop (a + x.length + 1) = cs := by
  rw [Nat.add_assoc, ← List.drop_drop, h, ← List.cons_append, ← List.length_cons (a := c)]
  exact List.drop_left

lemma cut_of_cons {c : Char} {x cs : List Char} (h : src.drop a = c :: (x ++ cs))
    (hb : a + x.length + 1 ≤ b) : cut src a b = c :: (x ++ cut src (a + x.length + 1) b) := by
  have hx : cut src a (a + x.length + 1) = c :: x := by
    rw [cut, h, ← List.cons_append, show a + x.length + 1 - a = (c :: x).length by
      rw [List.length_cons]; omega]
    exact List.take_left
  rw [← cut_append (m := a + x.length + 1) (by omega) hb, hx, List.cons_append]

lemma eq_of_endsLine (h : Reach src a [] b) (he : EndsLine (src.drop a)) : b = a := by
  generalize hm : [] = ms at h
  cases h with
  | refl => rfl
  | step hop _ =>
    obtain ⟨rfl, _⟩ := List.append_eq_nil_iff.1 hm.symm
    obtain ⟨c, cs, hc, hb, _⟩ := hop.nil_inv
    rw [hc] at he
    rw [he c (by simp)] at hb
    simp [isBlank] at hb

lemma endsLine_of_isLine {text : List Char} (h : Reach src a (ms ++ [.remark text]) b)
    (ht : IsLine text) : EndsLine (src.drop b) := by
  obtain ⟨m, _, hm⟩ := h.divide
  obtain ⟨p, q, _, hop, hq⟩ := hm.exists_hop
  obtain ⟨c, x, cs, rfl, hc, hf, rfl⟩ := hop.remark_inv
  have he : EndsLine (src.drop (p + x.length + 1)) := by
    rw [drop_of_cons hc]
    rcases comment_cases hf with hb | hl
    · exact absurd ht (not_isLine_of_isBlock hb)
    · exact hl.2
  rwa [eq_of_endsLine hq he]

namespace Follows

lemma of_endsLine (h : EndsLine rest) : Follows src a rest :=
  ⟨⟨[], src.drop a, rest, rfl, rfl, stops_of_endsLine h⟩, fun _ _ _ _ => h⟩

lemma of_stops {start : Nat} {l : Lexeme} (h : Reach src 0 (ms ++ [.lexeme start l]) a)
    (hr : Stops rest) : Follows src a rest := by
  refine ⟨⟨[], src.drop a, rest, rfl, rfl, hr⟩, fun ns text h' _ => ?_⟩
  have := (List.append_inj' (h.unique h') rfl).2
  simp at this

lemma cons {c : Char} {cs : List Char} (hc : src.drop a = c :: cs) (h : Follows src (a + 1) rest) :
    Follows src a (c :: rest) := by
  obtain ⟨u, v, w, hs, rfl, hw⟩ := h.agrees
  have hcs : cs = u ++ v := by
    rw [← hs, ← List.drop_drop, hc]
    rfl
  refine ⟨⟨c :: u, v, w, by rw [hc, hcs, List.cons_append], rfl, hw⟩, fun ms text hm ht => ?_⟩
  have he := endsLine_of_isLine hm ht
  rw [hc] at he
  rw [he c (by simp)]
  exact endsLine_newline _

lemma append {x cs : List Char} (hx : src.drop a = x ++ cs) (h : Follows src (a + x.length) rest) :
    Follows src a (x ++ rest) := by
  induction x generalizing a with
  | nil => exact h
  | cons c x ih =>
    have hd : src.drop (a + 1) = x ++ cs := by
      rw [← List.drop_drop, hx]
      rfl
    refine cons hx (ih hd ?_)
    rwa [List.length_cons, Nat.add_comm x.length, ← Nat.add_assoc] at h

end Follows

lemma signs_lexeme {c : Char} {x cs : List Char} {l : Lexeme} (hc : src.drop a = c :: (x ++ cs))
    (hf : first c (x ++ cs) = .ok ⟨.lexeme l, x.length⟩) (h : Follows src (a + x.length + 1) rest) :
    signs (c :: (x ++ rest)) = (signs rest).map (.lexeme l :: ·) := by
  obtain ⟨u, v, w, hs, rfl, hw⟩ := h.agrees
  rw [drop_of_cons hc] at hs
  subst hs
  exact signs_of_first (first_of_stops hw hf)

end ParallelTests.Scan
