import ParallelTests.Proofs.Layout.Insert
import ParallelTests.Proofs.Parse.Scanned

namespace ParallelTests

open Scan

namespace Scan

lemma text_of_first {c : Char} {x cs : List Char} {l : Lexeme}
    (h : first c (x ++ cs) = .ok ⟨.lexeme l, x.length⟩) : l.text = String.ofList (c :: x) := by
  generalize hk : Class.lexeme l = k at h
  generalize hn : x.length = n at h
  have ht : (x ++ cs).take n = x := by rw [← hn, List.take_left]
  cases first_found h with
  | number => rw [Class.lexeme.inj hk, ht, Lexeme.text]
  | word => rw [Class.lexeme.inj hk, ht, Lexeme.text_ofWord]
  | literal hm =>
    rw [Class.lexeme.inj hk, ht]
    rcases hm with rfl | rfl <;> rfl
  | raw => rw [Class.lexeme.inj hk, ht, Lexeme.text]
  | semicolon hc =>
    rw [Class.lexeme.inj hk, hc, List.length_eq_zero_iff.1 hn]
    rfl
  | operator ho =>
    rw [Class.lexeme.inj hk, Lexeme.text, Operator.text, chars_of_ofHead? ho hn.symm]
  | _ => simp at hk

lemma isIdentifier_of_first {c : Char} {cs : List Char} {name : String} {n : Nat}
    (h : first c cs = .ok ⟨.lexeme (.ident name), n⟩) : IsIdentifier name := by
  generalize hk : Class.lexeme (.ident name) = k at h
  cases first_found h with
  | word hc =>
    have hw := Class.lexeme.inj hk
    have hname : name = String.ofList (c :: cs.take (runLength Text.isWord cs)) := by
      have := congrArg Lexeme.text hw
      rwa [Lexeme.text_ofWord] at this
    refine ⟨⟨c, _, by rw [hname, String.toList_ofList], hc, fun d hd => ?_⟩, ?_⟩
    · rw [take_runLength] at hd
      exact List.mem_takeWhile_imp hd
    · rw [hname] at hw ⊢
      exact hw.symm
  | literal hm =>
    rcases hm with rfl | rfl <;> simp at hk
  | _ => simp at hk

lemma Hop.stop_eq {src : List Char} {a m start : Nat} {l : Lexeme}
    (h : Hop src a [.lexeme start l] m) : m = a + l.text.toList.length := by
  obtain ⟨c, x, cs, _, _, hf, rfl⟩ := h.lexeme_inv
  rw [text_of_first hf, String.toList_ofList, List.length_cons, Nat.add_assoc]

end Scan

namespace Chain

variable {src : List Char} {t : Token} {ts : List Token}

lemma text (h : Chain src ts) (ht : t ∈ ts) (hn : t.isAutomatic = false) :
    String.ofList (cut src t.start t.stop) = t.text := by
  obtain ⟨c, x, cs, _, hc, hf, hs⟩ := (h.hop ht hn).lexeme_inv
  rw [Token.text, text_of_first hf, hs, cut_of_cons hc (Nat.le_refl _), cut_self, List.append_nil]

lemma isIdentifier (h : Chain src ts) (ht : t ∈ ts) {name : String} (hl : t.lexeme = .ident name) :
    IsIdentifier name := by
  obtain ⟨c, x, cs, _, _, hf, _⟩ := (h.hop ht (by simp [Token.isAutomatic, hl])).lexeme_inv
  rw [hl] at hf
  exact isIdentifier_of_first hf

end Chain

end ParallelTests
