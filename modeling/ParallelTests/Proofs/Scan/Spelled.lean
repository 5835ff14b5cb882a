import ParallelTests.Proofs.Print.Tokens
import ParallelTests.Proofs.Semicolon.Automatic

namespace ParallelTests

namespace Scan

inductive Spelled : List Char → List Sign → Prop
  | nil : Spelled [] []
  | blank {c : Char} {cs : List Char} {ss : List Sign} (hc : isBlank c = true) (h : Spelled cs ss) :
      Spelled (c :: cs) ss
  | item {c : Char} {x y : List Char} {k : Class} {ss : List Sign}
      (hf : first c (x ++ y) = .ok ⟨k, x.length⟩) (hb : k ≠ .blank) (hk : k ≠ .comment)
      (h : Spelled y ss) : Spelled (c :: (x ++ y)) (k.signs (c :: x) ++ ss)

def EndsWord (cs : List Char) : Prop := ∀ c ∈ cs.head?, Text.isWord c = false

def IsLiteral (text : String) (l : Lexeme) : Prop :=
  (l = .string text ∨ l = .rune text) ∧
    ∃ c x, text.toList = c :: x ∧ first c x = .ok ⟨.lexeme l, x.length⟩

variable {src cs x y : List Char} {c : Char} {ss : List Sign} {l : Lexeme} {text name : String} {a : Nat}

lemma endsWord_cons (hc : Text.isWord c = false) : EndsWord (c :: cs) := by
  simpa [EndsWord] using hc

lemma quote_of_literal (hl : l = .string text ∨ l = .rune text) {n : Nat}
    (h : first c x = .ok ⟨.lexeme l, n⟩) : c = '\'' ∨ c = '"' ∨ c = '\x60' := by
  generalize hk : Class.lexeme l = k at h
  cases first_found h with
  | literal _ hc => exact hc.imp_right .inl
  | raw hc => exact .inr (.inr hc)
  | word =>
    obtain rfl := Class.lexeme.inj hk
    unfold Lexeme.ofWord at hl
    split at hl <;> simp at hl
  | _ => rcases hl with rfl | rfl <;> cases hk

lemma first_literal (hl : l = .string text ∨ l = .rune text)
    (h : first c x = .ok ⟨.lexeme l, x.length⟩) (y : List Char) :
    first c (x ++ y) = .ok ⟨.lexeme l, x.length⟩ := by
  have hx : first c (x ++ []) = .ok ⟨.lexeme l, x.length⟩ := by rwa [List.append_nil]
  rcases quote_of_literal hl h with rfl | rfl | rfl
  · exact literal_of_append (fun hf => runeLength_append hf y) hx
  · exact literal_of_append (fun hf => literalLength_append (by decide) hf y) hx
  · exact literal_of_append (fun hf => rawLength_append hf y) hx

namespace Spelled

lemma blanks {bs : List Char} (hb : ∀ c ∈ bs, isBlank c = true) (h : Spelled cs ss) :
    Spelled (bs ++ cs) ss := by
  induction bs with
  | nil => exact h
  | cons b bs ih => exact .blank (hb b (by simp)) (ih fun c hc => hb c (by simp [hc]))

lemma newline (h : Spelled cs ss) : Spelled ('\n' :: cs) (.newline :: ss) :=
  .item (x := []) (k := .newline) rfl (by simp) (by simp) h

lemma lexeme (hf : first c (x ++ y) = .ok ⟨.lexeme l, x.length⟩) (h : Spelled y ss) :
    Spelled (c :: (x ++ y)) (.lexeme l :: ss) :=
  .item hf (by simp) (by simp) h

lemma mark (hf : first c cs = .ok ⟨.lexeme l, 0⟩) (h : Spelled cs ss) :
    Spelled (c :: cs) (.lexeme l :: ss) :=
  lexeme (x := []) hf h

lemma word (hname : name.toList = c :: x) (hc : Text.isWordStart c = true)
    (hx : ∀ d ∈ x, Text.isWord d = true) (hy : EndsWord y) (h : Spelled y ss) :
    Spelled (name.toList ++ y) (.lexeme (.ofWord name) :: ss) := by
  have hf := first_word hc hx hy
  rw [← hname, String.ofList_toList] at hf
  rw [hname]
  exact lexeme hf h

lemma identifier (hn : IsIdentifier name) (hy : EndsWord y) (h : Spelled y ss) :
    Spelled (name.toList ++ y) (.lexeme (.ident name) :: ss) := by
  obtain ⟨⟨c, x, hname, hc, hx⟩, hword⟩ := hn
  have := word hname hc hx hy h
  rwa [hword] at this

lemma literal (hl : IsLiteral text l) (h : Spelled y ss) :
    Spelled (text.toList ++ y) (.lexeme l :: ss) := by
  obtain ⟨hl, c, x, htext, hf⟩ := hl
  rw [htext]
  exact lexeme (first_literal hl hf y) h

lemma period (hn : IsIdentifier name) (h : Spelled (name.toList ++ y) ss) :
    Spelled ('.' :: (name.toList ++ y)) (.lexeme (.op .period) :: ss) := by
  obtain ⟨⟨c, x, hname, hc, -⟩, -⟩ := hn
  refine mark ?_ h
  rw [hname, List.cons_append]
  exact first_period hc _

lemma star (hx : cs.head? ≠ some '=') (h : Spelled cs ss) :
    Spelled ('*' :: cs) (.lexeme (.op (.arith .mul)) :: ss) := by
  refine mark ?_ h
  have ho : Operator.ofHead? ('*' :: cs) = some (.arith .mul) := by
    cases cs with
    | nil => rfl
    | cons d cs =>
      have hd : ('=' == d) = false := by
        rw [beq_eq_false_iff_ne]
        rintro rfl
        exact hx rfl
      simp [Operator.ofHead?, Operator.all, Operator.chars, Arith.chars, List.find?,
        List.isPrefixOf, Bracket.opener, Bracket.closer, hd]
  simp [first, isBlank, startsNumber, operator, ho, Text.isWordStart, Text.isWord, Operator.chars,
    Arith.chars]

lemma ellipsis (h : Spelled cs ss) :
    Spelled ('.' :: '.' :: '.' :: cs) (.lexeme (.op .ellipsis) :: ss) :=
  lexeme (x := ['.', '.']) rfl h

lemma assigns {o : Operator} (ho : o.assigns = true) (h : Spelled cs ss) :
    Spelled (o.chars ++ ' ' :: cs) (.lexeme (.op o) :: ss) := by
  have hspace : Spelled (' ' :: cs) ss := .blank rfl h
  cases o with
  | assign => exact lexeme (x := []) rfl hspace
  | define => exact lexeme (x := ['=']) rfl hspace
  | assignWith op =>
    cases op with
    | shl | shr | andNot => exact lexeme (x := [_, _]) rfl hspace
    | _ => exact lexeme (x := [_]) rfl hspace
  | _ => simp [Operator.assigns] at ho

lemma reach (h : Spelled cs ss) (hc : src.drop a = cs) (ha : a ≤ src.length) :
    ∃ ms, Reach src a ms src.length ∧ (∀ text, .remark text ∉ ms) ∧ ms.flatMap Mark.signs = ss := by
  induction h generalizing a with
  | nil =>
    obtain rfl : a = src.length := Nat.le_antisymm ha (List.drop_eq_nil_iff.1 hc)
    exact ⟨[], .refl ha, by simp, rfl⟩
  | @blank c cs ss hb _ ih =>
    have hop : Hop src a [] (a + 1) := .blank hc hb
    obtain ⟨ms, hr, hn, hms⟩ := ih (drop_of_cons (x := []) hc) hop.le_length
    exact ⟨ms, .step hop hr, hn, hms⟩
  | @item c x y k ss hf hb hk _ ih =>
    have hop := Hop.item hc hf hb
    obtain ⟨ms, hr, hn, hms⟩ := ih (drop_of_cons hc) hop.le_length
    refine ⟨k.marks a (c :: x) ++ ms, .step hop hr, fun text => ?_, ?_⟩
    · cases k <;> simp_all [Class.marks]
    · rw [List.flatMap_append, Class.flatMap_marks, hms]

lemma signs (h : Spelled cs ss) : Scan.signs cs = some ss := by
  obtain ⟨ms, hr, -, hms⟩ := h.reach (List.drop_zero (l := cs)) (Nat.zero_le _)
  rw [← hms, ← hr.signs rfl, List.drop_zero]

end Spelled

end Scan

namespace TokenStream

open Scan TokenGroup

lemma exists_of_spelled {src : Source} {ss : List Sign} {P : List TokenGroup → Prop}
    (h : Spelled src.chars ss)
    (hg : ∀ ts : List Token, ts.map (·.lexeme) = settle false ss → ∃ gs, ofTokens ts = .ok gs ∧ P gs) :
    ∃ s, ofSource src = .ok s ∧ s.comments = [] ∧ P s.groups := by
  obtain ⟨ms, hr, hn, hms⟩ := h.reach (List.drop_zero (l := src.chars)) (Nat.zero_le _)
  obtain ⟨its, hits, hl⟩ := items_of_signs h.signs .start false
  obtain ⟨gs, hgs, hP⟩ := hg _ hl
  have hs : ofSource src =
      .ok ⟨src, its.filterMap Item.token?, its.filterMap Item.comment?, gs⟩ := by
    rw [ofSource, Source.items, hits]
    simp only [hgs]
  refine ⟨_, hs, ?_, hP⟩
  have hnoted := noted hs
  generalize its.filterMap Item.comment? = comments at hnoted
  cases hnoted with
  | nil => rfl
  | @cons _ _ c _ hreach _ hop =>
    obtain ⟨rest, rfl, -⟩ := (hreach.trans (.single hop)).split hr hop.le_length
    exact absurd (by simp) (hn c.text.toList)

end TokenStream

end ParallelTests
