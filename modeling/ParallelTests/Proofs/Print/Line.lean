import ParallelTests.Proofs.Print.Block

namespace ParallelTests.Printer

open Scan

variable {rebase : Option Rebase} {page page' : Page} {n : Node} {base : String}

def IsIndentation (base : String) : Prop := ∀ c ∈ base.toList, isBlank c = true

lemma IsIndentation.deeper (h : IsIndentation base) : IsIndentation (base ++ "\t") := by
  intro c hc
  rw [String.toList_append] at hc
  rcases List.mem_append.1 hc with hc | hc
  · exact h c hc
  · obtain rfl : c = '\t' := by simpa using hc
    rfl

lemma indents_moved (h : IsIndentation base) (hl : n.layout.Sound) : Indents (moved n base) := by
  intro r hr
  unfold moved at hr
  split at hr
  · simp at hr
  · next old ho =>
    split at hr
    · simp at hr
    · obtain rfl := Option.some.inj hr
      exact ⟨hl.indent old ho, h⟩

lemma wrote_trailing (hl : n.layout.Sound) :
    ∃ w k, (∀ page, Wrote page (trailing page n) w) ∧ (n.layout.trailing = none → w = []) ∧
      (∀ rest, Stops (w ++ '\n' :: rest)) ∧ ∀ rest, signs (w ++ '\n' :: rest) =
        (signs ('\n' :: rest)).map (List.replicate k .newline ++ ·) := by
  cases ht : n.layout.trailing with
  | none =>
    refine ⟨[], 0, fun page => ?_, fun _ => rfl, fun rest => stops_cons rfl, fun rest => by simp⟩
    simpa [trailing, ht] using wrote_refl
  | some text =>
    obtain ⟨closed, hn⟩ := hl.trailing text ht
    obtain ⟨k, hk⟩ := hn.signs
    refine ⟨' ' :: text.toList, k, fun page => ?_, by simp, fun rest => stops_cons rfl,
      fun rest => ?_⟩
    · simpa [trailing, ht] using wrote_write page (" " ++ text)
    · rw [List.cons_append, signs_blank rfl, hk _ (.inr (endsLine_newline rest))]

lemma emitLine_eq (hc : n.kind ≠ .caseClause) (hl : n.kind ≠ .labeled) :
    emitLine rebase base page n = (do
      let page ← emit (moved n (base ++ "\t")) (page.write (base ++ "\t")) n
      return (trailing page n).write "\n") := by
  obtain ⟨span, layout, pieces, shape⟩ := n
  rw [emitLine]
  · rintro _ _ _ header body ⟨⟩
    exact hc rfl
  · rintro _ _ _ label ⟨⟩
    exact hl rfl
  · rintro _ _ _ label inside ⟨⟩
    exact hl rfl

lemma emitLine_wrote (hc : n.kind ≠ .caseClause) (hl : n.kind ≠ .labeled) (hs : n.layout.Sound)
    (hb : IsIndentation base) (h : emitLine rebase base page n = .ok page') :
    ∃ page₁ page₂ w, Wrote page page₁ (base.toList ++ ['\t']) ∧ Indents (moved n (base ++ "\t")) ∧
      emit (moved n (base ++ "\t")) page₁ n = .ok page₂ ∧ Wrote page₂ page' (w ++ ['\n']) ∧
      (n.layout.trailing = none → w = []) ∧ (∀ rest, Stops (w ++ '\n' :: rest)) ∧
      ∃ k, ∀ rest, signs (w ++ '\n' :: rest) =
        (signs ('\n' :: rest)).map (List.replicate k .newline ++ ·) := by
  rw [emitLine_eq hc hl, Except.bind_eq_ok_iff] at h
  obtain ⟨page₂, he, h⟩ := h
  obtain rfl := Except.pure_eq_ok_iff.1 h
  obtain ⟨w, k, hw, hnone, hst, hsg⟩ := wrote_trailing hs
  refine ⟨_, page₂, w, ?_, indents_moved hb.deeper hs, he, (hw page₂).trans (wrote_write _ "\n"),
    hnone, hst, k, hsg⟩
  simpa using wrote_write page (base ++ "\t")

lemma wrote_blankBefore (first : Bool) :
    ∃ k, ∀ page, Wrote page (if !first && n.layout.blankBefore then page.write "\n" else page)
      (List.replicate k '\n') := by
  cases h : !first && n.layout.blankBefore with
  | true => exact ⟨1, fun page => by simpa using wrote_write page "\n"⟩
  | false => exact ⟨0, fun page => by simpa using wrote_refl⟩

lemma signs_newlines (k : Nat) (rest : List Char) :
    signs (List.replicate k '\n' ++ rest) = (signs rest).map (List.replicate k .newline ++ ·) := by
  induction k with
  | zero => simp
  | succ k ih =>
    rw [List.replicate_succ, List.cons_append, signs_newline, ih, Option.map_map]
    simp [List.replicate_succ, Function.comp_def]

lemma emitLines_cons {first : Bool} {ns : List Node}
    (h : emitLines rebase base first page (n :: ns) = .ok page') :
    ∃ k page₁ page₂, Wrote page page₁ (List.replicate k '\n') ∧
      emitLine rebase base page₁ n = .ok page₂ ∧ emitLines rebase base false page₂ ns = .ok page' := by
  rw [emitLines, Except.bind_eq_ok_iff] at h
  obtain ⟨page₂, h₁, h₂⟩ := h
  obtain ⟨k, hk⟩ := wrote_blankBefore (n := n) first
  exact ⟨k, _, page₂, hk page, h₁, h₂⟩

lemma emitLines_insert (hb : IsIndentation base) {first : Bool} {ins : List Insert} {own : List Node}
    (hv : ∀ i ∈ ins, i.Valid)
    (h : emitLines rebase base first page (ins.map Insert.node ++ own) = .ok page') :
    ∃ page₁ first' w xs, Wrote page page₁ w ∧
      emitLines rebase base first' page₁ own = .ok page' ∧
      (∀ rest, signs ('\n' :: (w ++ rest)) = (signs ('\n' :: rest)).map (xs ++ ·)) ∧
      words xs = ins.flatMap Insert.lexemes ∧ (ins = [] → xs = []) := by
  induction ins generalizing page first with
  | nil => exact ⟨page, first, [], [], wrote_refl, h, fun rest => by simp, rfl, fun _ => rfl⟩
  | cons i ins ih =>
    obtain ⟨k, page₁, page₂, hk, hline, hrest⟩ := emitLines_cons h
    have hkind : i.node.kind ≠ .caseClause ∧ i.node.kind ≠ .labeled := by
      rcases i.kind_node with h | h <;> simp [h]
    have hlayout : i.node.layout = {} := by cases i <;> rfl
    rw [emitLine_eq hkind.1 hkind.2] at hline
    obtain ⟨page₃, hemit, hline⟩ := Except.bind_eq_ok_iff.1 hline
    obtain rfl := Except.pure_eq_ok_iff.1 hline
    simp only [moved, trailing, hlayout] at hemit hrest
    obtain ⟨_, he, hw⟩ := i.emit_node (page₁.write (base ++ "\t"))
    obtain rfl := Except.ok.inj (he.symm.trans hemit)
    obtain ⟨page₄, first', w, xs, hw', hl, hs, hx, _⟩ :=
      ih (fun j hj => hv j (by simp [hj])) hrest
    refine ⟨page₄, first', _, List.replicate (k + 1) .newline ++ (i.lexemes.map .lexeme ++ xs),
      (((hk.trans (wrote_write _ (base ++ "\t"))).trans hw).trans (wrote_write _ "\n")).trans hw',
      hl, fun rest => ?_, ?_, by simp⟩
    · have : '\n' :: (List.replicate k '\n' ++ (base ++ "\t").toList ++ i.text.toList ++ "\n".toList ++
          w ++ rest) = List.replicate (k + 1) '\n' ++ ((base ++ "\t").toList ++
          (i.text.toList ++ '\n' :: (w ++ rest))) := by
        simp [List.replicate_succ]
      rw [this, signs_newlines, signs_blanks hb.deeper, i.signs_text (hv i (by simp)), hs]
      simp [Function.comp_def]
    · rw [words_append, words_append, hx, List.flatMap_cons, i.words_lexemes]
      simp [words]

end ParallelTests.Printer
