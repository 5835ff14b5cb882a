import ParallelTests.Proofs.Inverse.Writable

/-!
Statements without verbatim text: what is printed for one and put into a body is read back as a
statement of the same outline.
-/

namespace ParallelTests

open Scan Printer TokenGroup

def Node.HoldsOnly (body n : Node) : Prop := ∃ m, body.stmts = [m] ∧ m.outline = n.outline

namespace Parser

variable {s : TokenStream} {n x : Node} {lhs rhs : List Node} {st : Stretch} {t o c op closer semi : Token}
  {g : TokenGroup} {gs ls rs tail : List TokenGroup} {p : Placed}

lemma upTo_append_cons {f : TokenGroup → Bool} (tail : List TokenGroup) (h : ∀ g ∈ gs, f g = false)
    (hg : f g = true) :
    upTo f (gs ++ g :: tail) = gs ∧ since f (gs ++ g :: tail) = g :: tail := by
  constructor
  · rw [upTo, List.takeWhile_append_of_pos fun a ha => by simp [h a ha]]
    simp [hg]
  · rw [since, List.dropWhile_append_of_pos fun a ha => by simp [h a ha]]
    simp [hg]

lemma since_of_none {f : TokenGroup → Bool} (h : ∀ g ∈ gs, f g = false) : since f gs = [] := by
  rw [since, List.dropWhile_eq_nil_iff]
  exact fun g hg => by simp [h g hg]

def Single (s : TokenStream) (st : Stretch) (n : Node) (rest : List TokenGroup) : Prop :=
  ∃ step, simple s st = .ok step ∧ step.node.node.outline = n.outline ∧ step.rest = rest

structure ReadingStmt (n : Node) (st : Stretch) : Prop where
  plain : ∀ g ∈ st.toList, g.isSemicolon = false ∧ g.isOp .colon = false
  head : ∃ t, st.head = .leaf t ∧ isInert (.leaf t) = true
  single : ∀ s semi, semi.isSemicolon = true → Single s ⟨st.head, st.tail ++ [.leaf semi]⟩ n [.leaf semi]

lemma statement_of_plain (h : ∀ g ∈ st.toList, g.isSemicolon = false) (hs : semi.isSemicolon = true) :
    (⟨st.head, st.tail ++ [.leaf semi]⟩ : Stretch).statement = st ∧
      since isSemicolon (st.tail ++ [.leaf semi]) = [.leaf semi] := by
  have hsemi : isSemicolon (.leaf semi) = true := hs
  obtain ⟨hup, hsince⟩ := upTo_append_cons [] (List.forall_mem_cons.1 h).2 hsemi
  exact ⟨by rw [Stretch.statement, hup], hsince⟩

lemma Reading.stmt (h : Reading x st) (hn : n.shape = .exprStmt x) : ReadingStmt n st := by
  obtain ⟨t, ht⟩ := h.head
  have hsemi : ∀ g ∈ st.toList, g.isSemicolon = false :=
    fun g hg => isSemicolon_of_isInert (h.inert g hg)
  refine ⟨fun g hg => ⟨hsemi g hg, isOp_of_isInert (h.inert g hg) (by simp) (by simp)⟩,
    ⟨t, ht, ht ▸ h.inert _ (by simp [Stretch.toList])⟩, fun s semi hs => ?_⟩
  obtain ⟨hst, hrest⟩ := statement_of_plain hsemi hs
  obtain ⟨p, hp, ho⟩ := h.whole s
  rw [Single, simple]
  split
  · rw [hst, hp.expr]
    refine ⟨_, rfl, Node.outline_of_label (shape_woven ..) hn rfl ?_, hrest⟩
    simp [Shape.children, ho]
  · next turn right hturn =>
    rw [hst, since_of_none fun g hg => isTurn_of_isInert (h.inert g hg)] at hturn
    cases hturn

lemma Row.stmt (hl : Row lhs ls) (hr : Row rhs rs) (hlhs : lhs ≠ []) (hrhs : rhs ≠ []) {o : Operator}
    (ho : o.assigns = true) (hop : op.lexeme = .op o) (hst : st.toList = ls ++ .leaf op :: rs)
    (hn : n.shape = .assign lhs o.text rhs) : ReadingStmt n st := by
  have hturn : isTurn (.leaf op) = true := by simp [isTurn, hop, ho]
  have hcolon : o ≠ .colon := by
    rintro rfl
    cases ho
  have hplain : ∀ g ∈ st.toList, g.isSemicolon = false ∧ g.isOp .colon = false := by
    rw [hst]
    refine List.forall_mem_append.2 ⟨fun g hg => ⟨(hl.plain g hg).1, (hl.plain g hg).2.2⟩,
      List.forall_mem_cons.2 ⟨?_, fun g hg => ⟨(hr.plain g hg).1, (hr.plain g hg).2.2⟩⟩⟩
    simp [isSemicolon, Token.isSemicolon, isOp, Token.isOp, hop, hcolon]
  obtain ⟨t, tail, hls, ht⟩ := hl.head hlhs
  obtain ⟨hhead, -⟩ := List.cons.inj (hst.trans (congrArg (· ++ .leaf op :: rs) hls))
  refine ⟨hplain, ⟨t, hhead, ht⟩, fun s semi hs => ?_⟩
  obtain ⟨hstatement, hrest⟩ := statement_of_plain (fun g hg => (hplain g hg).1) hs
  obtain ⟨hup, hsince⟩ := upTo_append_cons rs (fun g hg => (hl.plain g hg).2.1) hturn
  obtain ⟨ps, hps, hpo⟩ := hl.exprs s
  obtain ⟨qs, hqs, hqo⟩ := hr.exprs s
  rw [Single, simple]
  split
  · next hnone =>
    rw [hstatement, hst, hsince] at hnone
    cases hnone
  · next turn right hturned =>
    rw [hstatement, hst, hsince] at hturned
    obtain ⟨rfl, rfl⟩ := List.cons.inj hturned
    have hne {o' : Operator} (ho' : o'.assigns = false) (he : op.lexeme = .op o') : False := by
      obtain rfl := Lexeme.op.inj (hop.symm.trans he)
      rw [ho] at ho'
      cases ho'
    have hlength : ps.length = lhs.length := by simpa using congrArg List.length hpo
    have hlength' : qs.length = rhs.length := by simpa using congrArg List.length hqo
    have hempty : (ps.isEmpty || qs.isEmpty) = false := by
      have hps' : ps ≠ [] := by
        rintro rfl
        exact hlhs (List.map_eq_nil_iff.1 hpo.symm)
      have hqs' : qs ≠ [] := by
        rintro rfl
        exact hrhs (List.map_eq_nil_iff.1 hqo.symm)
      simp [hps', hqs']
    simp only [TokenGroup.first]
    split
    · next he => exact (hne rfl he).elim
    · next he => exact (hne rfl he).elim
    · next he => exact (hne rfl he).elim
    · rw [hstatement, hst, hup, hps, hqs]
      simp only [bind, Except.bind, hempty]
      refine ⟨_, rfl, Node.outline_of_label (shape_woven ..) hn ?_ ?_, hrest⟩
      · rw [Shape.label_assign, Shape.label_assign, Token.text, hop]
        simp [hlength, hlength', Lexeme.text]
      · simpa [Shape.children, Function.comp_def, hpo] using hqo

lemma stmt_of_simple {step : Step tail} (closer : Token) (ht : isInert (.leaf t) = true)
    (hc : ∀ g ∈ tail.head?, g.isOp .colon = false) (h : simple s ⟨.leaf t, tail⟩ = .ok step) :
    ∃ step', stmt s closer ⟨.leaf t, tail⟩ = .ok step' ∧ step'.node = step.node ∧ step'.rest = step.rest := by
  rw [stmt]
  rcases lexeme_of_isInert ht with ⟨name, hl⟩ | ⟨_, hl | hl⟩ | hl | hl
  · simp only [hl]
    -- a colon behind the name would make it a label
    split
    · next colon rest =>
      have hcolon : colon.isOp .colon = false := hc (.leaf colon) rfl
      simp only [hcolon, h]
      exact ⟨step, rfl, rfl, rfl⟩
    · simp only [h]
      exact ⟨step, rfl, rfl, rfl⟩
  all_goals
    simp only [hl]
    exact ⟨step, h, rfl, rfl⟩

lemma expectEnd_semicolon (hs : semi.isSemicolon = true) : expectEnd [.leaf semi] = .ok () := by
  simp [expectEnd, isSemicolon, hs]

lemma items_semicolon (hs : semi.isSemicolon = true) : items s closer [.leaf semi] = .ok [] := by
  rw [items]
  simp [isSemicolon, hs, items, pure, Except.pure]

lemma ReadingStmt.items (h : ReadingStmt n st) (hs : semi.isSemicolon = true) (s : TokenStream)
    (closer : Token) : ∃ p, items s closer (st.toList ++ [.leaf semi]) = .ok [⟨p, p.span.stop⟩] ∧
      p.node.outline = n.outline := by
  obtain ⟨head, tail⟩ := st
  obtain ⟨t, rfl, ht⟩ := h.head
  obtain ⟨hsemi, -⟩ := h.plain (.leaf t) (by simp [Stretch.toList])
  obtain ⟨step, hsimple, ho, hrest⟩ := h.single s semi hs
  have hcolon : ∀ g ∈ (tail ++ [TokenGroup.leaf semi]).head?, g.isOp .colon = false := by
    intro g hg
    rcases List.mem_append.1 (List.mem_of_mem_head? hg) with hg | hg
    · exact (h.plain g (List.mem_cons_of_mem _ hg)).2
    · obtain rfl := List.mem_singleton.1 hg
      by_contra hc
      have hl : semi.lexeme = .op .colon := by simpa [isOp, Token.isOp] using hc
      simp [Token.isSemicolon, hl] at hs
  obtain ⟨step', hstmt, hnode, hrest'⟩ := stmt_of_simple closer ht hcolon hsimple
  rw [hrest] at hrest'
  refine ⟨indented s.source step'.node, ?_, ?_⟩
  · rw [Stretch.toList, List.cons_append, Parser.items]
    simp [hsemi, isClause_of_isInert ht, hstmt, hrest', expectEnd_semicolon hs, items_semicolon hs,
      bind, Except.bind, pure, Except.pure]
  · rw [← ho, ← hnode]
    exact Node.outline_of_shape rfl

lemma attach_single {comments : List Comment} {o c : Token}
    (hc : ∀ r ∈ comments, r.start < o.stop ∨ c.start ≤ r.start) (occupant : Occupant) :
    Attach.attach comments o c [occupant] =
      ([{ occupant.stmt with layout := { occupant.stmt.layout with blankBefore := false } }], none) := by
  have hfree : Attach.free comments o c [occupant] = [] := by
    rw [Attach.free, List.filter_eq_nil_iff]
    intro r hr
    rcases hc r hr with h | h <;> simp [h]
  simp [Attach.attach, hfree, Attach.entries, Attach.Shelf.add, Attach.Shelf.push]

lemma ReadingStmt.block (h : ReadingStmt n st) (hs : semi.isSemicolon = true)
    (hc : ∀ r ∈ s.comments, r.start < o.stop ∨ c.start ≤ r.start) :
    ∃ p, Parser.block s o (st.toList ++ [.leaf semi]) c = .ok p ∧ p.node.HoldsOnly n := by
  obtain ⟨p, hitems, ho⟩ := h.items hs s c
  rw [Parser.block, hitems]
  simp only [bind, Except.bind, attach_single hc]
  refine ⟨_, rfl, _, rfl, ?_⟩
  rw [← ho]
  exact Node.outline_of_shape rfl

end Parser

/-- An expression without verbatim text, or an assignment between lists of them, as a statement. -/
inductive WritableStmt : Node → Prop
  | expr {span : Option Span} {layout : Layout} {x : Node} (h : Writable x) :
      WritableStmt (.mk span layout none (.exprStmt x))
  | assign {span : Option Span} {layout : Layout} {lhs rhs : List Node} {o : Operator}
      (ho : o.assigns = true) (hl : lhs ≠ []) (hr : rhs ≠ []) (hlhs : ∀ x ∈ lhs, Writable x)
      (hrhs : ∀ x ∈ rhs, Writable x) : WritableStmt (.mk span layout none (.assign lhs o.text rhs))

structure SpellsStmt (n : Node) (w : List Char) (ls : List Lexeme) : Prop where
  emits : Writes (emit none · n) w
  closes : ∃ init l, ls = init ++ [l] ∧ l.endsLine = true
  spelled : ∀ rest ss, EndsWord rest → Spelled rest ss → Spelled (w ++ rest) (ls.map .lexeme ++ ss)
  groups : ∀ ts : List Token, ts.map (·.lexeme) = ls → ∃ st, Grouped ts st.toList ∧ Parser.ReadingStmt n st

variable {span : Option Span} {layout : Layout} {n x : Node} {lhs rhs : List Node} {o : Operator}
  {v w : List Char} {ls ms : List Lexeme}

lemma Spells.stmt (h : Spells x w ls) : SpellsStmt (.mk span layout none (.exprStmt x)) w ls where
  emits := by
    simp only [emit]
    exact h.emits
  closes := h.closes
  spelled := h.spelled
  groups ts hts := by
    obtain ⟨st, hst, hread⟩ := h.groups ts hts
    exact ⟨st, hst, hread.stmt rfl⟩

lemma SpellsRow.stmt (hl : SpellsRow lhs w ls) (hr : SpellsRow rhs v ms) (hlhs : lhs ≠ []) (hrhs : rhs ≠ [])
    (ho : o.assigns = true) : SpellsStmt (.mk span layout none (.assign lhs o.text rhs))
      (w ++ ' ' :: (o.chars ++ ' ' :: v)) (ls ++ .op o :: ms) where
  emits := by
    have htext : w ++ ' ' :: (o.chars ++ ' ' :: v) = w ++ ((" " ++ o.text ++ " ").toList ++ v) := by
      simp [Operator.text]
    rw [htext]
    simp only [emit]
    exact hl.emits.bind ((Writes.write (" " ++ o.text ++ " ")).bind hr.emits)
  closes := by
    obtain ⟨init, l, rfl, hl⟩ := hr.closes hrhs
    exact ⟨ls ++ .op o :: init, l, by simp, hl⟩
  spelled rest ss hrest hs := by
    have hbehind : Spelled (' ' :: _) _ := .blank rfl (.assigns ho (hr.spelled rest ss hrest hs))
    simpa using hl.spelled _ _ (endsWord_cons rfl) hbehind
  groups ts hts := by
    obtain ⟨xs, _, rfl, hxs, hbehind⟩ := List.map_eq_append_iff.1 hts
    obtain ⟨op, ys, rfl, hop, hys⟩ := List.map_eq_cons_iff.1 hbehind
    obtain ⟨gs, hgs, hrow⟩ := hl.groups xs hxs
    obtain ⟨hs, hhs, hrow'⟩ := hr.groups ys hys
    obtain ⟨t, tail, rfl, -⟩ := hrow.head hlhs
    have hleaf : Grouped [op] [.leaf op] := by
      apply Grouped.leaf <;> rintro b hb <;> rw [hop, Lexeme.op.injEq] at hb <;> simp [hb, Operator.assigns] at ho
    exact ⟨⟨.leaf t, tail ++ .leaf op :: hs⟩, hgs.append (hleaf.append hhs),
      hrow.stmt hrow' hlhs hrhs ho hop rfl rfl⟩

lemma WritableStmt.exists_spells (h : WritableStmt n) : ∃ w ls, SpellsStmt n w ls := by
  cases h with
  | expr h =>
    obtain ⟨w, ls, hx⟩ := h.exists_spells
    exact ⟨w, ls, hx.stmt⟩
  | assign ho hl hr hlhs hrhs =>
    obtain ⟨w, ls, hspells⟩ := exists_spellsRow fun x hx => (hlhs x hx).exists_spells
    obtain ⟨v, ms, hspells'⟩ := exists_spellsRow fun x hx => (hrhs x hx).exists_spells
    exact ⟨_, _, hspells.stmt hspells' hl hr ho⟩

end ParallelTests
