import ParallelTests.Proofs.Parse.Attach

namespace ParallelTests

open Scan TokenGroup

lemma Laid.extend {src : List Char} {extra : Nat → List Lexeme} {fresh : Bool} {last : Lexeme}
    {ns : List Node} {a b b' : Nat} {ms : List Mark} (h : Laid src extra (.stmts fresh last ns) a b)
    (hr : Reach src b ms b') (hg : ∀ m ∈ ms, m.isGap = true) :
    Laid src extra (.stmts fresh last ns) a b' := by
  generalize hp : Part.stmts fresh last ns = part at h
  induction h generalizing fresh last ns with
  | ended hr' hg' =>
    cases hp
    exact .ended (hr'.trans hr) (List.forall_mem_append.2 ⟨hg', hg⟩)
  | comment hl ht hc _ ih =>
    cases hp
    exact .comment hl ht hc (ih hr rfl)
  | stmt hr' hg' hend hn hm hsync hlast hfresh _ _ ih =>
    cases hp
    exact .stmt hr' hg' hend hn hm hsync hlast hfresh (ih hr rfl)
  | _ => cases hp

variable {src : List Char} {fresh : Bool} {gs sems : List TokenGroup} {ps : List Placed}

lemma Rows.last {t : Token} (h : Rows src fresh gs ps) (ht : t.isSemicolon = false) :
    ((tokens gs).getLastD t).isSemicolon = false := by
  induction h generalizing t with
  | nil => exact ht
  | @cons _ _ sems gs st _ _ _ _ hp _ _ ih =>
    obtain ⟨ls, hls⟩ := st.tokens_eq_last
    rw [tokens_append, tokens_append, List.getLastD_append_right, List.getLastD_append_right, hls,
      List.getLastD_concat]
    exact ih hp.last

lemma List.cons_eq_dropLast_append {α : Type} (x : α) (xs : List α) :
    x :: xs = (x :: xs).dropLast ++ [xs.getLastD x] := by
  rw [← List.getLast_eq_getLastD (List.cons_ne_nil x xs), List.dropLast_concat_getLast]

lemma Rows.lies_between {qs : List Placed} {o c : Token} (h : Rows src fresh gs ps)
    (hd : Dressed ps qs) (hs : ∀ g ∈ sems, g.isSemicolon = true)
    (hc : Chain src (o :: tokens (gs ++ sems) ++ [c])) (ho : o.isSemicolon = false)
    (hc' : c.isSemicolon = false) (hf : fresh = true → o.lexeme.endsLine = false) :
    Lies src (.stmts fresh o.lexeme (qs.map Placed.node)) o.stop c.start := by
  rw [tokens_append, ← List.cons_append, List.append_assoc] at hc
  have hin := h.lies hd hc.left ho hf
  rw [List.cons_eq_dropLast_append, List.append_assoc] at hc
  obtain ⟨ms, hr, hg, _⟩ := hc.right.gap (h.last ho) (forall_tokens_of_semis hs).1 hc'
  exact hin.extend hr hg

lemma Rows.lined {os : List Occupant} {a b : Nat} (h : Rows src fresh gs (os.map (·.stmt)))
    (hsc : Scanned src a gs b) (hsp : Spaced b os) (ho : ∀ o ∈ os, o.Ordered) : Lined a os b := by
  induction os generalizing fresh gs a with
  | nil => exact hsc.le
  | cons o os ih =>
    obtain ⟨hord, hos⟩ := List.forall_mem_cons.1 ho
    cases h with
    | @cons _ _ sems gs st _ _ _ _ hp _ h =>
      obtain ⟨hpre, hst, hrest⟩ := hsc.around sems st
      have hstart : o.stmt.span.start = st.first.start := by rw [hp.span_eq]; rfl
      have hstop : o.stmt.span.stop = st.last.stop := by rw [hp.span_eq]; rfl
      have hlined := ih h hrest hsp.2 hos
      have hle := hst.le
      by_cases hk : o.stmt.shape.kind = .caseClause
      · -- the comments behind a clause go up to what follows it
        have hend := hsp.1 hk
        cases os with
        | nil =>
          obtain rfl : o.stop = b := hend
          exact ⟨hstart ▸ hpre.le, by have := hrest.le; omega, hord.rising, Nat.le_refl _⟩
        | cons o' os' =>
          replace hend : o.stop = o'.stmt.span.start := hend
          obtain ⟨hle', hlined⟩ := hlined
          exact ⟨hstart ▸ hpre.le, by omega, hord.rising, Nat.le_of_eq hend, hlined⟩
      · rw [← hstop, ← hord.stop_eq hk] at hlined
        have hend := hord.stop_eq hk
        exact ⟨hstart ▸ hpre.le, by omega, hord.rising, hlined⟩

lemma reads_block {qs : List Placed} {o c : Token} {lead : Option String} {a b : Nat}
    (hsc : Scanned src a [.pair .curly o (gs ++ sems) c] b) (h : Rows src true gs ps)
    (hd : Dressed ps qs) (hs : ∀ g ∈ sems, g.isSemicolon = true)
    (hl : ∀ text ∈ lead, IsNote text) (ho : Rising o.stop (startsIn qs) c.start) :
    Reads src { span := .ofTokens o c, shape := .block (qs.map Placed.node) (o.line = c.line) lead }
      ⟨.pair .curly o (gs ++ sems) c, []⟩ := by
  have hc := hsc.chain
  rw [tokens_cons, spelled_pair, tokens_nil, List.append_nil, ← List.cons_append] at hc
  obtain ⟨hop, hcl⟩ := hsc.brackets
  have hstop : o.stop = o.start + 1 := hop.stop_eq
  have hstop' : c.stop = c.start + 1 := hcl.stop_eq
  obtain ⟨ho', hc'⟩ : o.lexeme = .openCurly ∧ c.lexeme = .closeCurly := by
    cases hsc.matched _ (List.mem_singleton_self _) with
    | pair ho hc _ => exact ⟨ho, hc⟩
  have hin := h.lies_between hd hs hc (by simp [Token.isSemicolon, ho', Lexeme.openCurly])
    (by simp [Token.isSemicolon, hc', Lexeme.closeCurly]) (by simp [ho', Lexeme.openCurly,
      Lexeme.endsLine])
  rw [hstop, ho'] at hin
  rw [hstop] at hop
  rw [hstop'] at hcl
  have hle := hsc.inner.le
  have hwoven := hd.forall_woven h.forall_woven
  refine ⟨rfl, rfl, ?_, .bare ?_ rfl ?_, fun _ => ?_, ?_⟩
  · have hb : Lies src (.node (.mk (some (.ofTokens o c)) {} none (.block
        (([] : List Insert).map Insert.node ++ qs.map Placed.node) (o.line = c.line) lead)))
        o.start (c.start + 1) :=
      .block hstop' hop hcl (hc.mem (List.mem_cons_self ..)).1 (List.forall_mem_nil _) rfl rfl (by simp)
        hl hin
    rw [← hstop'] at hb
    exact hb
  · exact List.forall_mem_map.2 fun q hq => (hwoven q hq).2
  · exact List.forall_mem_map.2 fun q hq => (hwoven q hq).1
  · change o.start < c.stop
    omega
  · rw [Placed.inner, Shape.children, flatMap_starts]
    refine ho.mono (Nat.le_of_eq hstop.symm) ?_
    change c.start ≤ c.stop
    omega

end ParallelTests
