import ParallelTests.Proofs.Scan.Boundary
import ParallelTests.Token.Lexer

/-!
What a text says once its blanks are left out and a comment counts only for the newline in it. The
tokens of a text follow from its signs.
-/

namespace ParallelTests.Scan

inductive Sign
  | newline
  | lexeme (lexeme : Lexeme)
  deriving DecidableEq, Repr

def Class.signs (text : List Char) : Class → List Sign
  | .newline => [.newline]
  | .blank => []
  | .comment => if text.contains '\n' then [.newline] else []
  | .lexeme l => [.lexeme l]

def signs : List Char → Option (List Sign)
  | [] => some []
  | c :: cs =>
    match first c cs with
    | .error _ => none
    | .ok ⟨kind, more⟩ => (signs (cs.drop more)).map (kind.signs (c :: cs.take more) ++ ·)
termination_by cs => cs.length
decreasing_by simp only [List.length_cons, List.length_drop]; omega

def settle (pending : Bool) : List Sign → List Lexeme
  | [] => if pending then [.semicolon false] else []
  | .newline :: rest => (if pending then [.semicolon false] else []) ++ settle false rest
  | .lexeme l :: rest => l :: settle l.endsLine rest

@[simp] lemma signs_nil : signs [] = some [] := by
  rw [signs]

lemma signs_of_first {c : Char} {x y : List Char} {k : Class}
    (h : first c (x ++ y) = .ok ⟨k, x.length⟩) :
    signs (c :: (x ++ y)) = (signs y).map (k.signs (c :: x) ++ ·) := by
  rw [signs]
  simp [h]

lemma signs_head {c : Char} {cs : List Char} {k : Class} (h : first c cs = .ok ⟨k, 0⟩) :
    signs (c :: cs) = (signs cs).map (k.signs [c] ++ ·) :=
  signs_of_first (x := []) h

lemma first_blank {c : Char} (h : isBlank c = true) (cs : List Char) :
    first c cs = .ok ⟨.blank, runLength isBlank cs⟩ := by
  have hn : c ≠ '\n' := by
    rintro rfl
    simp [isBlank] at h
  rw [first, if_neg hn, if_pos h]

lemma signs_drop_blanks (cs : List Char) : signs (cs.drop (runLength isBlank cs)) = signs cs := by
  cases cs with
  | nil => rfl
  | cons c cs =>
    cases h : isBlank c with
    | false => simp [runLength, h]
    | true =>
      rw [signs, first_blank h]
      simp [runLength, h, Class.signs]

lemma signs_blank {c : Char} (h : isBlank c = true) (cs : List Char) : signs (c :: cs) = signs cs := by
  rw [signs, first_blank h]
  simp [Class.signs, signs_drop_blanks]

lemma signs_blanks {bs : List Char} (h : ∀ c ∈ bs, isBlank c = true) (cs : List Char) :
    signs (bs ++ cs) = signs cs := by
  induction bs with
  | nil => rfl
  | cons b bs ih =>
    rw [List.cons_append, signs_blank (h b (by simp)), ih fun c hc => h c (by simp [hc])]

lemma signs_newline (cs : List Char) : signs ('\n' :: cs) = (signs cs).map (.newline :: ·) := by
  have h := signs_of_first (c := '\n') (x := []) (y := cs) (k := .newline) (by simp [first])
  simpa [Class.signs] using h

lemma items_of_signs {cs : List Char} {ss : List Sign} (h : signs cs = some ss) (at_ : Cursor)
    (pending : Bool) : ∃ its, Lexer.items at_ pending cs = .ok its ∧
      (its.filterMap Item.token?).map Token.lexeme = settle pending ss := by
  induction at_, pending, cs using Lexer.items.induct generalizing ss with
  | case1 at_ pending =>
    obtain rfl : ss = [] := by simpa using h.symm
    rw [Lexer.items]
    cases pending <;> simp [settle, Lexer.due, Item.token?, Cursor.semicolon, Cursor.token]
  | case2 at_ pending c cs cause he => simp [signs, he] at h
  | case3 at_ pending c cs more text next hf =>
    rename_i ih
    rw [signs, hf] at h
    obtain ⟨ss, hs, rfl⟩ := Option.map_eq_some_iff.1 h
    obtain ⟨its, hi, hl⟩ := ih hs
    simp only [Lexer.items, hf]
    refine ⟨_, by rw [hi]; rfl, ?_⟩
    cases pending <;>
      simp [hl, settle, Class.signs, Lexer.due, Item.token?, Cursor.semicolon, Cursor.token]
  | case4 at_ pending c cs more text next hf =>
    rename_i ih
    rw [signs, hf] at h
    obtain ⟨ss, hs, rfl⟩ := Option.map_eq_some_iff.1 h
    obtain ⟨its, hi, hl⟩ := ih hs
    simp only [Lexer.items, hf]
    exact ⟨_, hi, by simpa [Class.signs] using hl⟩
  | case5 at_ pending c cs more text next ended hf =>
    rename_i ih
    rw [signs, hf] at h
    obtain ⟨ss, hs, rfl⟩ := Option.map_eq_some_iff.1 h
    obtain ⟨its, hi, hl⟩ := ih hs
    simp only [Lexer.items, hf]
    refine ⟨_, by rw [hi]; rfl, ?_⟩
    have he : Class.comment.signs text = if ended then [.newline] else [] := rfl
    rw [List.filterMap_append, List.filterMap_cons_none rfl, List.map_append, hl, he]
    change (List.filterMap _ (if ended then _ else _)).map _ ++ _ = _
    cases ended <;> cases pending <;>
      simp [settle, Lexer.due, Item.token?, Cursor.semicolon, Cursor.token]
  | case6 at_ pending c cs more text next l hf =>
    rename_i ih
    rw [signs, hf] at h
    obtain ⟨ss, hs, rfl⟩ := Option.map_eq_some_iff.1 h
    obtain ⟨its, hi, hl⟩ := ih hs
    simp only [Lexer.items, hf]
    refine ⟨_, by rw [hi]; rfl, ?_⟩
    simp [hl, settle, Class.signs, Item.token?, Cursor.token]

end ParallelTests.Scan
