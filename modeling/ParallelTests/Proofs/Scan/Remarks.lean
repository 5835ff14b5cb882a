import ParallelTests.Proofs.Result
import ParallelTests.Proofs.Scan.Comment
import ParallelTests.Token.Lexer

namespace ParallelTests.Scan

def IsRemark (text : String) : Prop := IsBlock text.toList ∨ IsLine text.toList

structure Remarks (line : Nat) (cs : List Comment) : Prop where
  isRemark : ∀ c ∈ cs, IsRemark c.text
  le_line : ∀ c ∈ cs, line ≤ c.line
  endLine : ∀ c ∈ cs, IsLine c.text.toList → c.endLine = c.line
  pairwise : cs.Pairwise fun c d => IsLine c.text.toList → c.line < d.line
  ascending : cs.Pairwise fun c d => c.start < d.start

lemma Remarks.mono {line line' : Nat} {cs : List Comment} (h : Remarks line cs)
    (hl : line' ≤ line) : Remarks line' cs :=
  ⟨h.isRemark, fun c hc => Nat.le_trans hl (h.le_line c hc), h.endLine, h.pairwise, h.ascending⟩

lemma Remarks.sublist {line : Nat} {cs ds : List Comment} (h : Remarks line cs)
    (hs : ds.Sublist cs) : Remarks line ds :=
  ⟨fun d hd => h.isRemark d (hs.subset hd), fun d hd => h.le_line d (hs.subset hd),
    fun d hd => h.endLine d (hs.subset hd), h.pairwise.sublist hs, h.ascending.sublist hs⟩

lemma Remarks.nil {line : Nat} : Remarks line [] :=
  ⟨by simp, by simp, by simp, .nil, .nil⟩

lemma line_le_advance (at_ : Cursor) (cs : List Char) : at_.line ≤ (at_.advance cs).line := by
  rw [Cursor.line_advance]
  omega

lemma lastLine_of_isLine (at_ : Cursor) {text : List Char} (h : IsLine text) :
    at_.lastLine text = at_.line := by
  have hn : '\n' ∉ text := by
    obtain ⟨x, rfl, hx⟩ := h
    simpa using fun he => hx _ he rfl
  rw [Cursor.lastLine, Cursor.line_advance,
    List.count_eq_zero.2 fun he => hn ((List.dropLast_sublist text).subset he), Nat.add_zero]

lemma Remarks.cons {at_ : Cursor} {text : List Char} {line : Nat} {cs : List Comment}
    (ht : IsBlock text ∨ IsLine text) (hl : IsLine text → ∀ d ∈ cs, at_.line < d.line)
    (ho : ∀ d ∈ cs, at_.offset < d.start) (h : Remarks line cs) (hle : at_.line ≤ line) : Remarks at_.line (at_.comment text :: cs) := by
  have h' := h.mono hle
  have htext : (at_.comment text).text.toList = text := String.toList_ofList
  refine ⟨?_, ?_, ?_, .cons ?_ h'.pairwise, .cons ho h'.ascending⟩
  · intro c hc
    rcases List.mem_cons.1 hc with rfl | hc
    · rwa [IsRemark, htext]
    · exact h'.isRemark c hc
  · intro c hc
    rcases List.mem_cons.1 hc with rfl | hc
    · exact Nat.le_refl _
    · exact h'.le_line c hc
  · intro c hc
    rcases List.mem_cons.1 hc with rfl | hc
    · rw [htext]
      exact lastLine_of_isLine at_
    · exact h'.endLine c hc
  · rw [htext]
    exact fun d hd hi => hl hi d hd

lemma comments_due (pending : Bool) (at_ : Cursor) :
    (Lexer.due pending at_).filterMap Item.comment? = [] := by
  cases pending <;> rfl

lemma offset_le_of_items {cs : List Char} {at_ : Cursor} {pending : Bool}
    {its : List ParallelTests.Item} (h : Lexer.items at_ pending cs = .ok its) :
    ∀ c ∈ its.filterMap Item.comment?, at_.offset ≤ c.start := by
  have hnext (at_ : Cursor) (text : List Char) : at_.offset ≤ (at_.advance text).offset := by
    rw [Cursor.offset_advance]
    exact Nat.le_add_right _ _
  induction at_, pending, cs using Lexer.items.induct generalizing its with
  | case1 at_ pending =>
    rw [Lexer.items, Except.ok.injEq] at h
    rw [← h, comments_due]
    simp
  | case2 at_ pending c cs cause he => simp [Lexer.items, he] at h
  | case3 at_ pending c cs more text next hf =>
    rename_i ih
    simp only [Lexer.items, hf] at h
    obtain ⟨its, hi, rfl⟩ := Except.map_eq_ok_iff.1 h
    rw [List.filterMap_append, comments_due, List.nil_append]
    exact fun d hd => (hnext at_ text).trans (ih hi d hd)
  | case4 at_ pending c cs more text next hf =>
    rename_i ih
    simp only [Lexer.items, hf] at h
    exact fun d hd => (hnext at_ text).trans (ih h d hd)
  | case5 at_ pending c cs more text next ended hf =>
    rename_i ih
    simp only [Lexer.items, hf] at h
    obtain ⟨its, hi, rfl⟩ := Except.map_eq_ok_iff.1 h
    rw [List.filterMap_append, List.filterMap_cons_some (f := Item.comment?) rfl, List.forall_mem_append,
      List.forall_mem_cons]
    refine ⟨?_, Nat.le_refl _, fun d hd => (hnext at_ text).trans (ih hi d hd)⟩
    split
    · simp [comments_due]
    · simp
  | case6 at_ pending c cs more text next l hf =>
    rename_i ih
    simp only [Lexer.items, hf] at h
    obtain ⟨its, hi, rfl⟩ := Except.map_eq_ok_iff.1 h
    rw [List.filterMap_cons_none (f := Item.comment?) rfl]
    exact fun d hd => (hnext at_ text).trans (ih hi d hd)

lemma remarks_of_items {cs : List Char} {at_ : Cursor} {pending : Bool}
    {its : List ParallelTests.Item} (h : Lexer.items at_ pending cs = .ok its) :
    Remarks (at_.line + if cs.head? = some '\n' then 1 else 0) (its.filterMap Item.comment?) := by
  induction at_, pending, cs using Lexer.items.induct generalizing its with
  | case1 at_ pending =>
    rw [Lexer.items, Except.ok.injEq] at h
    rw [← h, comments_due]
    exact .nil
  | case2 at_ pending c cs cause he => simp [Lexer.items, he] at h
  | case3 at_ pending c cs more text next hf =>
    rename_i ih
    simp only [Lexer.items, hf] at h
    obtain ⟨its, hi, rfl⟩ := Except.map_eq_ok_iff.1 h
    rw [List.filterMap_append, comments_due, List.nil_append]
    obtain ⟨rfl, rfl⟩ := eq_newline_of_first hf
    refine (ih hi).mono ?_
    have : next.line = at_.line + 1 := Cursor.line_advance at_ text
    simp
    omega
  | case4 at_ pending c cs more text next hf =>
    rename_i ih
    simp only [Lexer.items, hf] at h
    refine (ih h).mono ?_
    have hc : c ≠ '\n' := by
      rintro rfl
      simp [first] at hf
    have : at_.line ≤ next.line := line_le_advance at_ text
    simp [hc]
    omega
  | case5 at_ pending c cs more text next ended hf =>
    rename_i ih
    simp only [Lexer.items, hf] at h
    obtain ⟨its, hi, rfl⟩ := Except.map_eq_ok_iff.1 h
    have hc : c ≠ '\n' := by
      rintro rfl
      simp [first] at hf
    have hle : at_.line ≤ next.line := line_le_advance at_ text
    have hl : (cs.take more).length = more := List.length_take_of_le (first_more_le hf)
    have hcases := comment_cases (x := cs.take more) (y := cs.drop more)
      (by rw [List.take_append_drop, hl]; exact hf)
    have hih := ih hi
    have hhere : (if ended then Lexer.due pending at_ else []).filterMap Item.comment? = [] := by
      cases ended
      · rfl
      · exact comments_due _ _
    have hnl : (if (c :: cs).head? = some '\n' then 1 else 0) = 0 := by simp [hc]
    rw [List.filterMap_append, List.filterMap_cons_some (f := Item.comment?) rfl, hnl]
    simp only [ended, text] at hhere
    rw [hhere]
    have hoffset : at_.offset < next.offset := by
      rw [Cursor.offset_advance]
      simp [text]
    refine hih.cons (hcases.imp id And.left) ?_
      (fun d hd => hoffset.trans_le (offset_le_of_items hi d hd)) (by omega)
    intro hi' d hd
    rcases hcases with hb | ⟨_, he⟩
    · exact absurd hi' (not_isLine_of_isBlock hb)
    · cases hr : cs.drop more with
      | nil =>
        rw [hr, Lexer.items, Except.ok.injEq] at hi
        rw [← hi, comments_due] at hd
        simp at hd
      | cons e r =>
        obtain rfl := he e (by simp [hr])
        have := hih.le_line d hd
        simp [hr] at this
        omega
  | case6 at_ pending c cs more text next l hf =>
    rename_i ih
    simp only [Lexer.items, hf] at h
    obtain ⟨its, hi, rfl⟩ := Except.map_eq_ok_iff.1 h
    rw [List.filterMap_cons_none (f := Item.comment?) rfl]
    refine (ih hi).mono ?_
    have hc : c ≠ '\n' := by
      rintro rfl
      simp [first] at hf
    have : at_.line ≤ next.line := line_le_advance at_ text
    simp [hc]
    omega

end ParallelTests.Scan
