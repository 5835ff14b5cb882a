import ParallelTests.Node.Attach
import ParallelTests.Proofs.Parse.Row

/-!
The statements of a block: groups that are read as statements, with semicolons between them. The
nodes may be dressed with comments before the block is made of them.
-/

namespace ParallelTests

open Scan TokenGroup

variable {src : List Char}

structure Stands (src : List Char) (p : Placed) (st : Stretch) : Prop where
  span_eq : p.span = st.span
  layout : p.layout.Sound
  trailing : p.layout.trailing = none
  lies : ∀ layout : Layout, layout.Sound → (p.shape.kind = .caseClause → layout.trailing = none) →
    Lies src (.line { p with layout := layout }.node) st.first.start st.last.stop
  woven : Woven src p.node
  isStmt : p.shape.kind.isStmt = true
  ne_comment : p.shape.kind ≠ .comment
  first : st.first.isSemicolon = false
  last : st.last.isSemicolon = false
  ordered : p.shape.kind ≠ .caseClause → p.Ordered

inductive Rows (src : List Char) : Bool → List TokenGroup → List Placed → Prop
  | nil {fresh : Bool} : Rows src fresh [] []
  | cons {fresh fresh' : Bool} {sems gs : List TokenGroup} {st : Stretch} {p : Placed}
      {ps : List Placed} (hs : ∀ g ∈ sems, g.isSemicolon = true) (hf : fresh = false → sems ≠ [])
      (hp : Stands src p st)
      (hc : fresh' = true → p.shape.kind = .caseClause ∧ st.last.lexeme = .op .colon)
      (h : Rows src fresh' gs ps) : Rows src fresh (sems ++ (st.toList ++ gs)) (p :: ps)

lemma Stands.head {p : Placed} {st : Stretch} (h : Stands src p st) :
    st.head.isSemicolon = false := by
  have := h.first
  rw [Stretch.first] at this
  cases hd : st.head with
  | leaf t => simpa [isSemicolon, TokenGroup.first, hd] using this
  | pair => rfl

namespace Rows

variable {fresh : Bool} {gs sems : List TokenGroup} {p : Placed} {ps : List Placed}

lemma eq_nil (h : Rows src fresh gs []) : gs = [] := by
  cases h with
  | nil => rfl

lemma strict (h : Rows src true gs ps) (hg : ∀ g ∈ gs.head?, g.isSemicolon = true) :
    Rows src false gs ps := by
  cases h with
  | nil => exact .nil
  | @cons _ _ sems _ st _ _ hs _ hp hc h =>
    refine .cons hs (fun _ => ?_) hp hc h
    rintro rfl
    have := hg st.head (by simp [Stretch.toList])
    rw [hp.head] at this
    simp at this

lemma semis (h : Rows src true gs (p :: ps)) (hs : ∀ g ∈ sems, g.isSemicolon = true)
    (hf : fresh = false → sems ≠ []) : Rows src fresh (sems ++ gs) (p :: ps) := by
  cases h with
  | @cons _ _ sems' _ st _ _ hs' _ hp hc h =>
    rw [← List.append_assoc]
    refine .cons (List.forall_mem_append.2 ⟨hs, hs'⟩) (fun he => ?_) hp hc h
    simp [hf he]

lemma stands (h : Rows src fresh gs ps) : ∀ p ∈ ps, ∃ st, Stands src p st := by
  induction h with
  | nil => simp
  | @cons _ _ _ _ st _ _ _ _ hp _ _ ih => exact List.forall_mem_cons.2 ⟨⟨st, hp⟩, ih⟩

lemma forall_woven (h : Rows src fresh gs ps) :
    ∀ p ∈ ps, Woven src p.node ∧ p.shape.kind.isStmt = true := by
  intro p hp
  obtain ⟨st, hst⟩ := h.stands p hp
  exact ⟨hst.woven, hst.isStmt⟩

end Rows

inductive Dressed : List Placed → List Placed → Prop
  | nil : Dressed [] []
  | stmt {p : Placed} {layout : Layout} {ps qs : List Placed} (hl : layout.Sound)
      (hc : p.shape.kind = .caseClause → layout.trailing = none) (h : Dressed ps qs) :
      Dressed (p :: ps) ({ p with layout := layout } :: qs)
  | comment {closed : Bool} {c : Comment} {layout : Layout} {ps qs : List Placed}
      (hl : layout.Sound) (ht : Note closed c.text.toList)
      (hc : closed = true ∨ layout.trailing = none) (h : Dressed ps qs) :
      Dressed ps ({ Attach.Shelf.statement c with layout := layout } :: qs)

lemma Dressed.forall_woven {ps qs : List Placed} (h : Dressed ps qs)
    (hp : ∀ p ∈ ps, Woven src p.node ∧ p.shape.kind.isStmt = true) :
    ∀ q ∈ qs, Woven src q.node ∧ q.shape.kind.isStmt = true := by
  induction h with
  | nil => simp
  | @stmt p layout _ _ _ _ _ ih =>
    obtain ⟨⟨hw, hk⟩, hps⟩ := List.forall_mem_cons.1 hp
    exact List.forall_mem_cons.2 ⟨⟨hw.congr rfl rfl rfl, hk⟩, ih hps⟩
  | comment _ _ _ _ ih =>
    refine List.forall_mem_cons.2 ⟨⟨.bare trivial rfl ?_, rfl⟩, ih hp⟩
    simp [Shape.children, Attach.Shelf.statement]

lemma forall_tokens_of_semis {sems : List TokenGroup} (h : ∀ g ∈ sems, g.isSemicolon = true) :
    (∀ t ∈ tokens sems, t.isSemicolon = true) ∧ (tokens sems ≠ [] ↔ sems ≠ []) := by
  induction sems with
  | nil => simp
  | cons g gs ih =>
    obtain ⟨hg, hgs⟩ := List.forall_mem_cons.1 h
    cases g with
    | leaf t => exact ⟨by simpa using ⟨hg, (ih hgs).1⟩, by simp⟩
    | pair => simp [isSemicolon] at hg

lemma Rows.lies {fresh : Bool} {gs : List TokenGroup} {ps qs : List Placed} {t : Token}
    (h : Rows src fresh gs ps) (hd : Dressed ps qs) (hc : Chain src (t :: tokens gs))
    (ht : t.isSemicolon = false) (hf : fresh = true → t.lexeme.endsLine = false) :
    Lies src (.stmts fresh t.lexeme (qs.map Placed.node)) t.stop ((tokens gs).getLastD t).stop := by
  induction hd generalizing fresh gs t with
  | nil =>
    obtain rfl := h.eq_nil
    exact .ended (.refl (hc.mem (List.mem_cons_self ..)).2.1.le_length) (by simp)
  | @comment closed c layout ps qs hl hn hcl _ ih =>
    exact .comment hl hn hcl (ih h hc ht hf)
  | @stmt p layout ps qs hl htr _ ih =>
    cases h with
    | @cons _ fresh' sems gs st _ _ hs hne hp hcol h =>
      obtain ⟨fs, hfs⟩ := st.tokens_eq_first
      obtain ⟨ls, hls⟩ := st.tokens_eq_last
      obtain ⟨hsem, hsne⟩ := forall_tokens_of_semis hs
      have hc' := hc
      rw [tokens_append, tokens_append, hfs] at hc'
      obtain ⟨gap, hr, hg, he⟩ := hc'.gap ht hsem hp.first
      rw [tokens_append, tokens_append, ← List.cons_append] at hc
      have hst : Chain src (tokens st.toList) := hc.right.left
      have hfirst := hst.mem (t := st.first) (by simp [hfs])
      have hlast := hst.mem (t := st.last) (by simp [hls])
      obtain ⟨ms, hm⟩ := hfirst.1.to hlast.1 (hst.first_le (by simp [hls]))
      have hnext : Chain src (st.last :: tokens gs) := by
        have := hc.right
        rw [hls, List.append_assoc] at this
        exact this.right
      have hend : ((tokens (sems ++ (st.toList ++ gs))).getLastD t) = (tokens gs).getLastD st.last := by
        rw [tokens_append, tokens_append, List.getLastD_append_right, List.getLastD_append_right, hls]
        simp
      rw [hend, List.map_cons]
      refine .stmt hr hg ?_ (hp.lies layout hl htr)
        (hm.trans (.single (hst.hop (by simp [hls]) (Token.isAutomatic_of_isSemicolon hp.last)))) hfirst.1
        ?_ (fun hf' => (hcol hf').1) (ih h hnext hp.last fun hf' => ?_)
      · split
        · next hfr => exact hf hfr
        · next hfr => exact he.2 (hsne.2 (hne (by simpa using hfr)))
      · have := hp.last
        rw [Token.isSemicolon] at this
        cases hl : st.last.lexeme <;> simp_all [Lexeme.isSemicolon]
      · rw [(hcol hf').2]
        rfl

end ParallelTests
