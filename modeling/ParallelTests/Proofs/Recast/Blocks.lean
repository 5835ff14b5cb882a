import ParallelTests.Proofs.Recast.Expressions

/-!
Blocks and clauses are read from a copy as from its source: their statements stand one behind the
other on both sides, with the same comments between them.
-/

namespace ParallelTests

open TokenGroup Scan

structure TokenStream.Genuine (s : TokenStream) : Prop where
  read : TokenStream.ofSource s.source = .ok s
  remarks : ∃ line, Remarks line s.comments

namespace TokenStream.Genuine

variable {s : TokenStream} {gs : List TokenGroup} {t : Token}

lemma ascending (h : s.Genuine) : s.comments.Pairwise fun c d => c.start < d.start := by
  obtain ⟨line, hr⟩ := h.remarks
  exact hr.ascending

lemma line_le (h : s.Genuine) : ∀ c ∈ s.comments, c.line ≤ c.endLine := by
  intro c hc
  have hremarked := remarked h.read c hc
  have := @lineAt_add s.source.chars _ _ hremarked.hop.lt.le
  rw [hremarked.line, hremarked.endLine]
  omega

lemma endLine_eq (h : s.Genuine) (hgs : s.Has gs) (ht : t ∈ TokenGroup.tokens gs)
    (hn : t.isAutomatic = false) (hl : '\n' ∉ t.lexeme.text.toList) : t.endLine = t.line := by
  obtain ⟨a, b, hscan⟩ := hgs.holds
  have hop := hscan.chain.hop ht hn
  rw [endLine_token h.read (hgs.mem t ht) hop, line_token h.read (hgs.mem t ht) hop hl]

end TokenStream.Genuine

namespace Attach.Partition

variable {comments leads : List Comment} {opener closer : Token} {os : List Occupant}
  {slots : List Slot} {qs : List Placed} {lead : Option String} {q : Placed} {lost : Nat → Prop}
  {n : Node}

lemma span_or_hidden (h : Partition comments opener closer os leads slots qs lead) (hq : q ∈ qs) :
    (∃ o ∈ os, q.span = o.stmt.span) ∨ q.node.isShown = false := by
  obtain ⟨x, hx, _, rfl⟩ : ∃ x ∈ slots, x.Fills q := by
    obtain ⟨i, hi, rfl⟩ := List.getElem_of_mem hq
    exact ⟨_, List.getElem_mem (h.fills.length_eq ▸ hi), h.fills.get _ hi⟩
  cases he : x.entry with
  | stmt p =>
    have hp : p ∈ os.map (·.stmt) := h.stmts ▸ List.mem_filterMap.2 ⟨x, hx, by rw [he]; rfl⟩
    obtain ⟨o, ho, rfl⟩ := List.mem_map.1 hp
    exact .inl ⟨o, ho, rfl⟩
  | comment c => exact .inr rfl

lemma keeps (h : Partition comments opener closer os leads slots qs lead) (hk : n.Keeps lost)
    (hn : n.isShown = true) (hl : n.kind ≠ .labeled) (hq : ∀ q ∈ qs, q.node ∈ n.children) :
    ∀ o ∈ os, o.stmt.node.Keeps lost := by
  intro o ho
  obtain ⟨blank, text, hmem⟩ := h.exists_of_mem ho
  exact (hk.children hn hl _ (hq _ hmem)).congr rfl rfl rfl

end Attach.Partition

namespace Parser

variable {s s' : TokenStream} {lost : Nat → Prop} {f : Bool} {x y z : Twin} {st : Stretch}
  {gs gs' : List TokenGroup} {t t' c c' : Token} {line : Nat}

/-! ### Where statements stand -/

lemma scanned_of_within (h : s.Within gs c) : ∃ a, Scanned s.source.chars a gs c.start := by
  obtain ⟨opener, before, a, b, hscan⟩ := h.encloses
  exact ⟨_, hscan.inner.right⟩

lemma lined_items {a : Nat} (hs : s.Genuine) (h : Scanned s.source.chars a gs c.start)
    {os : List Occupant} (hos : items s c gs = .ok os) : Lined a os c.start ∧ Spaced c.start os := by
  obtain ⟨line, hr⟩ := hs.remarks
  obtain ⟨core, sems, rfl, -, hrows, hsp, hord⟩ := (specs hr _).items (Nat.lt_succ_self _) h hos
  exact ⟨hrows.lined h.left hsp (hord (Nat.le_refl _)), hsp⟩

lemma lined_clauseBody {a : Nat} (hs : s.Genuine) (h : Scanned s.source.chars a gs c.start)
    {r : Steps gs} (hr : clauseBody s c gs = .ok r) :
    Lined a (r.nodes.map fun p => ⟨p, p.span.stop⟩) (next c r.rest).start := by
  obtain ⟨line, hremarks⟩ := hs.remarks
  obtain ⟨core, sems, hrest, -, hrows, -, -, hk⟩ :=
    (specs hremarks _).clauseBody (Nat.lt_succ_self _) h hr
  rw [hrest] at h
  obtain ⟨m, hcore, hmore⟩ := h.split
  exact (hrows.lined_of_forall hcore hk).mono (le_next hmore (Nat.le_refl _))

structure Ends (p : Placed) (t : Token) : Prop where
  stop : p.span.stop = t.stop
  endLine : p.span.endLine = t.endLine

lemma ends_of_stands {src : List Char} {p : Placed} {before sems : List TokenGroup} {u : Token}
    (h : Stands src p st) (hb : before = st.toList ++ sems) (hs : ∀ g ∈ sems, g.isSemicolon = true) :
    p.span.start = st.first.start ∧ Ends p ((lastWord before).getD u) := by
  have hl : (st.tail.getLastD st.head).isSemicolon = false := by
    have hlast := h.last
    rw [Stretch.last] at hlast
    cases hd : st.tail.getLastD st.head with
    | leaf t =>
      rw [hd] at hlast
      exact hlast
    | pair => rfl
  rw [hb, lastWord_stretch hl hs]
  exact ⟨congrArg Span.start h.span_eq, congrArg Span.stop h.span_eq, congrArg Span.endLine h.span_eq⟩

lemma of_stmt (hs : s.Genuine) (h : s.Has st.toList) (hd : st.head.isSemicolon = false)
    {step : Step st.tail} (hstep : stmt s c st = .ok step) {before : List TokenGroup}
    (hb : st.toList = before ++ step.rest) {u : Token} :
    step.node.span.start = st.first.start ∧ Ends step.node ((lastWord before).getD u) := by
  obtain ⟨line, hr⟩ := hs.remarks
  obtain ⟨a, b, hscan⟩ := h.holds
  obtain ⟨st', hst, hstands, -, -⟩ := (specs hr _).stmt (Nat.lt_succ_self _) hscan hd hstep
  obtain rfl : before = st'.toList := List.append_cancel_right (hb.symm.trans hst)
  have hfirst : st'.first = st.first := by
    rw [Stretch.toList, Stretch.toList] at hst
    exact congrArg TokenGroup.first (List.cons.inj hst).1.symm
  rw [← hfirst]
  exact ends_of_stands hstands (List.append_nil _).symm (by simp)

lemma clause_ends (hs : s.Genuine) (h : s.Has (.leaf t :: gs)) (ht : isClause (.leaf t) = true)
    {step : Step gs} (hstep : clause s t c gs = .ok step) {before : List TokenGroup}
    (hb : .leaf t :: gs = before ++ step.rest) {u : Token} :
    step.node.span.start = t.start ∧ Ends step.node ((lastWord before).getD u) := by
  obtain ⟨line, hr⟩ := hs.remarks
  obtain ⟨a, b, hscan⟩ := h.holds
  obtain ⟨_, ⟨⟩, hsemi⟩ := of_isClause ht
  obtain ⟨st', sems, hst, hsems, hstands, -⟩ :=
    (specs hr _).clause (Nat.lt_succ_self _) hscan hsemi hstep
  rw [← List.append_assoc] at hst
  obtain rfl : before = st'.toList ++ sems := List.append_cancel_right (hb.symm.trans hst)
  have hfirst : st'.first = t := by
    rw [Stretch.toList, List.cons_append, List.cons_append] at hst
    exact congrArg TokenGroup.first (List.cons.inj hst).1.symm
  rw [← hfirst]
  exact ends_of_stands hstands rfl hsems

/-! ### Between statements -/

lemma notes_eq (h : x.Next lost s.comments s'.comments ⟨t, t'⟩)
    (hl : ∀ i, x.source.stop ≤ i → i < t.start → ¬lost i) :
    notes x.source.endLine (between s.comments x.source.stop t.start) =
      notes x.copy.endLine (between s'.comments x.copy.stop t'.start) := by
  refine h.meets.notes fun c hc => ?_
  have hbounds : x.source.stop ≤ c.start ∧ c.start < t.start := by
    simpa using (List.mem_filter.1 hc).2
  exact hl _ hbounds.1 hbounds.2

lemma not_in_of_lt {os : List Occupant} {o : Occupant} {a b i : Nat} (h : Lined a (o :: os) b)
    (hi : i < o.stmt.span.start) : ∀ p ∈ o :: os, ¬(p.stmt.span.start ≤ i ∧ i < p.stmt.span.stop) := by
  obtain ⟨-, hle, -, hrest⟩ := h
  rintro p (_ | ⟨_, hp⟩) ⟨hstart, -⟩
  · omega
  · have := hrest.le_start p hp
    omega

lemma filed_cons {p p' : Placed} {os os' : List Occupant} {k k' b b' : Nat}
    (h : x.Next lost s.comments s'.comments ⟨t, t'⟩) (hp : p.span.start = t.start)
    (hp' : p'.span.start = t'.start) (hl : ∀ i, x.source.stop ≤ i → i < t.start → ¬lost i)
    (hsame : SameShape p.node p'.node)
    (hrest : Filed s.comments s'.comments k p.span.endLine k' p'.span.endLine os os' b b') :
    Filed s.comments s'.comments x.source.stop x.source.endLine x.copy.stop x.copy.endLine
      (⟨p, k⟩ :: os) (⟨p', k'⟩ :: os') b b' := by
  refine .cons ?_ hsame hrest
  rw [hp, hp']
  exact notes_eq h hl

structure Stepped (s s' : TokenStream) (lost : Nat → Prop) (x : Twin) (gs gs' : List TokenGroup)
    (y : Twin) (p p' : Placed) (rest rest' : List TokenGroup) (w : Twin) : Prop where
  before : ∃ before before', gs = before ++ rest ∧ gs' = before' ++ rest' ∧
    Twins lost s.comments s'.comments false x before before' w
  faces : Faces s s' lost true w rest rest' y
  node : p.node.Copied lost p'.node
  first : ∃ t t', x.Next lost s.comments s'.comments ⟨t, t'⟩ ∧ p.span.start = t.start ∧
    p'.span.start = t'.start
  ends : Ends p w.source
  ends' : Ends p' w.copy

lemma stmt_stepped (hs : s.Genuine) (hs' : s'.Genuine) {g g' : TokenGroup} {rest rest' : List TokenGroup}
    (ih : (mirrorLaw s s').stmt ⟨g, rest⟩) (h : Faces s s' lost true x (g :: rest) (g' :: rest') y)
    (hg : g.isSemicolon = false) (c c' : Token) :
    Mirrors (fun r r' => ∃ w, Stepped s s' lost x (g :: rest) (g' :: rest') y r.node r'.node r.rest
      r'.rest w) (stmt s c ⟨g, rest⟩) (stmt s' c' ⟨g', rest'⟩) := by
  replace h : Faces s s' lost true x (⟨g, rest⟩ : Stretch).toList (⟨g', rest'⟩ : Stretch).toList y := h
  have hg' : g'.isSemicolon = false := (blind_isSemicolon _ _ h.twins.like).trans hg
  refine (ih h hg c c').imp_of_ok fun r r' hr hr' htakes => ?_
  obtain ⟨before, before', w, hb, hb', htwins, hrest⟩ := htakes.leaves
  have hw := htwins.eq_lastWord
  obtain ⟨hstart, hends⟩ := of_stmt hs h.source hg hr hb (u := x.source)
  obtain ⟨hstart', hends'⟩ := of_stmt hs' h.copy hg' hr' hb' (u := x.copy)
  refine ⟨w, ⟨before, before', hb, hb', htwins⟩, ⟨hrest, ?_, ?_⟩, htakes.node,
    ⟨g.first, g'.first, h.twins.next_first hg, hstart, hstart'⟩, hw ▸ hends, hw ▸ hends'⟩
  · exact h.source.suffix (hb ▸ List.suffix_append _ _)
  · exact h.copy.suffix (hb' ▸ List.suffix_append _ _)

lemma expectEnd_mirrors (h : Faces s s' lost f x gs gs' y) :
    Mirrors (fun _ _ => True) (expectEnd gs) (expectEnd gs') := by
  cases gs with
  | nil =>
    obtain ⟨-, rfl | ⟨-, e, he, rfl⟩⟩ := h.twins.of_nil
    · exact .ok trivial
    · have hsemi : (leaf e).isSemicolon = true := by simp [isSemicolon, Token.isSemicolon, he]
      rw [expectEnd, expectEnd, if_pos hsemi]
      exact .ok trivial
  | cons g rest =>
    obtain ⟨g', rest', _, rfl, hlike, -⟩ := h.of_cons
    rw [expectEnd, expectEnd, blind_isSemicolon _ _ hlike]
    split
    · exact .ok trivial
    · exact .fail

lemma behind_of_twins {before before' rest : List TokenGroup} {w : Twin} (h : s.Has (before ++ rest))
    (ht : Twins lost s.comments s'.comments f x before before' w)
    (hx : ∀ t ∈ tokens (before ++ rest), x.source.stop ≤ t.start) :
    x.source.stop ≤ w.source.stop ∧ ∀ t ∈ tokens rest, w.source.stop ≤ t.start := by
  obtain ⟨a, b, hscan⟩ := h.holds
  rw [tokens_append] at hx
  rcases ht.mem_tokens with rfl | hw
  · exact ⟨Nat.le_refl _, fun t ht => hx t (List.mem_append_right _ ht)⟩
  · have hpw := hscan.chain.pairwise
    rw [tokens_append] at hpw
    have hle := (hscan.chain.mem (t := w.source) (by simp [tokens_append, hw])).2.2
    exact ⟨(hx _ (List.mem_append_left _ hw)).trans hle,
      fun t ht => (List.pairwise_append.1 hpw).2.2 _ hw _ ht⟩

lemma copied_indented {p p' : Placed} {src src' : Source} (h : p.node.Copied lost p'.node) :
    (indented src p).node.Copied lost (indented src' p').node := fun hk =>
  have hsame := h (hk.congr rfl rfl rfl)
  hsame.relaid rfl rfl hsame.trailing_eq

lemma kind_of_clause {step : Step gs} (h : clause s t c gs = .ok step) :
    step.node.shape.kind = .caseClause := by
  obtain ⟨_, _, _, _, _, _, -, -, -, -, -, -, hnode⟩ := of_clause h
  rw [hnode]
  rfl

lemma items_of_semicolon {g : TokenGroup} (hg : g.isSemicolon = true) :
    items s c (g :: gs) = items s c gs := by
  rw [items.eq_def]
  exact if_pos hg

lemma clauseBody_of_semicolon {g : TokenGroup} (hg : g.isSemicolon = true) :
    clauseBody s c (g :: gs) = (clauseBody s c gs).map fun r => r.mono (List.suffix_cons g gs) := by
  have hclause : isClause g = false := by
    cases hc : isClause g with
    | false => rfl
    | true =>
      obtain ⟨t, rfl, ht⟩ := of_isClause hc
      exact absurd hg (by simp [isSemicolon, ht])
  rw [clauseBody.eq_def]
  simp only [hclause, hg, if_true]
  rfl

lemma items_mirrors (hs : s.Genuine) (hs' : s'.Genuine)
    (ih : (mirrorLaw s s').Below (8 * size gs + 5)) : (mirrorLaw s s').items gs := by
  intro lost x gs' y c c' h hx hend hin hin'
  cases gs with
  | nil =>
    obtain ⟨rfl, hgs'⟩ := h.twins.of_nil
    have hread : items s' c' gs' = .ok [] := by
      obtain rfl | ⟨-, e, he, rfl⟩ := hgs'
      · rw [items.eq_def]
        rfl
      · rw [items_of_semicolon (by simp [isSemicolon, Token.isSemicolon, he]), items.eq_def]
        rfl
    rw [items.eq_def, hread]
    exact .ok fun _ hl => .nil (notes_eq hend fun i hi hi' => hl i hi hi' (by simp))
  | cons g rest =>
    have hweight := weight_pos g
    have hsuffix := List.suffix_cons g rest
    cases hg : g.isSemicolon with
    | true =>
      obtain ⟨g', rest', rfl, hg', -, hrest⟩ := h.of_semicolon hg
      rw [items_of_semicolon hg, items_of_semicolon hg']
      exact ih.items rest (by simp; omega) hrest (fun t ht => hx t (by simp [ht])) hend
        (hin.suffix hsuffix) (hin'.suffix (List.suffix_cons g' rest'))
    | false =>
      obtain ⟨g', rest', w, rfl, hlike, -, -⟩ := h.of_cons
      have hsemi : ¬g.isSemicolon = true := by simp [hg]
      have hsemi' : ¬g'.isSemicolon = true := by rwa [blind_isSemicolon _ _ hlike]
      obtain ⟨a, hscan⟩ := scanned_of_within hin
      obtain ⟨a', hscan'⟩ := scanned_of_within hin'
      refine Mirrors.imp_of_ok (R := fun os os' => Lined a os c.start → Spaced c.start os →
        Spaced c'.start os' → _) ?_ fun os os' hos hos' hR =>
          hR (lined_items hs hscan hos).1 (lined_items hs hscan hos).2 (lined_items hs' hscan' hos').2
      rw [items.eq_def, items.eq_def]
      dsimp only
      rw [if_neg hsemi, if_neg hsemi', blind_isClause _ _ hlike]
      split
      · next hclause =>
        obtain ⟨t, rfl, -⟩ := of_isClause hclause
        obtain ⟨t', _, -, he, -⟩ := h.of_leaf
        cases he
        have hclause' := (blind_isClause _ _ hlike).trans hclause
        apply (ih.clause rest (by simp) h hend hin hin' hclause).bind_of_ok
        rintro r r' hr hr' ⟨hpasses, hcopied⟩
        obtain ⟨before, before', w, hb, hb', htwins, hrest⟩ := h.passes hpasses
        obtain ⟨hstart, hends⟩ := clause_ends hs hin.has hclause hr hb (u := x.source)
        obtain ⟨hstart', -⟩ := clause_ends hs' hin'.has hclause' hr' hb' (u := x.copy)
        have hw := htwins.eq_lastWord
        have hstop : r.node.span.stop = w.source.stop := by rw [hends.stop, hw]
        obtain ⟨hle, hbehind⟩ := behind_of_twins (hb ▸ h.source) htwins (hb ▸ hx)
        have hsize := size_le_of_suffix r.rest_suffix
        apply (ih.items r.rest (by simp; omega) hrest hbehind hend
          (hin.suffix (r.rest_suffix.trans (List.suffix_cons _ _)))
          (hin'.suffix (r'.rest_suffix.trans (List.suffix_cons _ _)))).bind
        intro os os' hfiled
        refine .ok fun hlined hsp hsp' hk hl => ?_
        obtain ⟨hkr, hkos⟩ := List.forall_mem_cons.1 hk
        have hout := fun i => not_in_of_lt (i := i) hlined
        obtain ⟨-, hnext, -, hlater⟩ := hlined
        have hend' := hlater.le
        dsimp only at hnext hend' hlater
        have hfurther := hfiled hkos fun i hi hi' hout =>
          hl i (by omega) hi' (List.forall_mem_cons.2 ⟨by dsimp only; omega, hout⟩)
        refine filed_cons (h.twins.next_first hg) hstart hstart' (fun i hi hi' => ?_)
          (hcopied (fun i hi hi' => ?_) hkr)
          (hfurther.touch (hsp.1 (kind_of_clause hr)).symm (hsp'.1 (kind_of_clause hr')).symm _ _)
        · exact hl i hi (by simp only [TokenGroup.first] at hi'; omega) (hout i (hi'.trans_eq hstart.symm))
        · refine hl i (by omega) (by omega) (List.forall_mem_cons.2 ⟨by dsimp only; omega, fun p hp => ?_⟩)
          have := hlater.le_start p hp
          omega
      · have hsize' : size rest < size (g :: rest) := by simp; omega
        apply (stmt_stepped hs hs' (ih.stmt ⟨g, rest⟩ (by simp)) h hg c c').bind
        rintro r r' ⟨w, hstep⟩
        apply (expectEnd_mirrors hstep.faces).bind
        intro _ _ _
        obtain ⟨before, before', hb, hb', htwins⟩ := hstep.before
        obtain ⟨t, t', hnext, hstart, hstart'⟩ := hstep.first
        obtain ⟨hle, hbehind⟩ := behind_of_twins (hb ▸ h.source) htwins (hb ▸ hx)
        have hsize := size_le_of_suffix r.rest_suffix
        dsimp only [Stretch.tail] at hsize
        apply (ih.items r.rest (by omega) hstep.faces hbehind hend
          (hin.suffix (r.rest_suffix.trans (List.suffix_cons _ _)))
          (hin'.suffix (r'.rest_suffix.trans (List.suffix_cons _ _)))).bind
        intro os os' hfiled
        refine .ok fun hlined hsp hsp' hk hl => ?_
        obtain ⟨hkr, hkos⟩ := List.forall_mem_cons.1 hk
        have hout := fun i => not_in_of_lt (i := i) hlined
        obtain ⟨-, hstop, -, hlater⟩ := hlined
        have hend' := hlater.le
        have hfurther := hfiled hkos fun i hi hi' hout =>
          hl i (by omega) hi' (List.forall_mem_cons.2
            ⟨fun h => absurd (h.2.trans_eq hstep.ends.stop) (Nat.not_lt.2 hi), hout⟩)
        rw [← hstep.ends.stop, ← hstep.ends.endLine, ← hstep.ends'.stop, ← hstep.ends'.endLine] at hfurther
        refine filed_cons hnext hstart hstart' (fun i hi hi' => ?_) (copied_indented hstep.node hkr) hfurther
        exact hl i hi (hi'.trans_le ((hstart.ge.trans hstop).trans hend')) (hout i (hi'.trans_eq hstart.symm))

lemma clauseBody_mirrors (hs : s.Genuine) (hs' : s'.Genuine)
    (ih : (mirrorLaw s s').Below (8 * size gs + 5)) : (mirrorLaw s s').clauseBody gs := by
  intro lost x gs' y c c' h hx hend hin hin'
  cases gs with
  | nil =>
    obtain ⟨rfl, hgs'⟩ := h.twins.of_nil
    obtain ⟨r', hread, hnodes, hrest⟩ : ∃ r', clauseBody s' c' gs' = .ok r' ∧ r'.nodes = [] ∧
        r'.rest = [] := by
      obtain rfl | ⟨-, e, he, rfl⟩ := hgs'
      · rw [clauseBody.eq_def]
        exact ⟨_, rfl, rfl, rfl⟩
      · rw [clauseBody_of_semicolon (by simp [isSemicolon, Token.isSemicolon, he]), clauseBody.eq_def]
        exact ⟨_, rfl, rfl, rfl⟩
    rw [clauseBody.eq_def, hread]
    refine .ok ⟨⟨[], gs', y, rfl, by simp [hrest], h.twins, ?_⟩, fun _ hl => ?_⟩
    · rw [hrest]
      exact .nil
    · rw [hnodes, hrest]
      exact .nil (notes_eq hend fun i hi hi' => hl i hi hi' (by simp))
  | cons g rest =>
    have hweight := weight_pos g
    have hsuffix := List.suffix_cons g rest
    cases hg : g.isSemicolon with
    | true =>
      obtain ⟨g', rest', rfl, hg', hsemi, hrest⟩ := h.of_semicolon hg
      rw [clauseBody_of_semicolon hg, clauseBody_of_semicolon hg']
      have ih := ih.clauseBody rest (by simp; omega) hrest (fun t ht => hx t (by simp [ht])) hend
        (hin.suffix hsuffix) (hin'.suffix (List.suffix_cons g' rest'))
      rintro r hr
      obtain ⟨q, hq, rfl⟩ := Except.map_eq_ok_iff.1 hr
      obtain ⟨r', hr', hpasses, hfiled⟩ := ih q hq
      exact ⟨_, Except.map_eq_ok_iff.2 ⟨r', hr', rfl⟩, .append hsemi hpasses, hfiled⟩
    | false =>
      obtain ⟨g', rest', w, rfl, hlike, -, -⟩ := h.of_cons
      have hsemi : ¬g.isSemicolon = true := by simp [hg]
      have hsemi' : ¬g'.isSemicolon = true := by rwa [blind_isSemicolon _ _ hlike]
      obtain ⟨a, hscan⟩ := scanned_of_within hin
      refine Mirrors.imp_of_ok (R := fun r r' => Lined a (r.nodes.map fun p => ⟨p, p.span.stop⟩)
        (next c r.rest).start → _) ?_ fun r r' hr hr' hR => hR (lined_clauseBody hs hscan hr)
      rw [clauseBody.eq_def, clauseBody.eq_def]
      dsimp only
      rw [if_neg hsemi, if_neg hsemi', blind_isClause _ _ hlike]
      split
      · exact .ok fun _ => ⟨.refl h.twins, fun _ hl =>
          .nil (notes_eq (h.twins.next_first hg) fun i hi hi' => hl i hi hi' (by simp))⟩
      · have hsize' : size rest < size (g :: rest) := by simp; omega
        apply (stmt_stepped hs hs' (ih.stmt ⟨g, rest⟩ (by simp)) h hg c c').bind
        rintro r r' ⟨w, hstep⟩
        apply (expectEnd_mirrors hstep.faces).bind
        intro _ _ _
        obtain ⟨before, before', hb, hb', htwins⟩ := hstep.before
        obtain ⟨t, t', hnext, hstart, hstart'⟩ := hstep.first
        obtain ⟨hle, hbehind⟩ := behind_of_twins (hb ▸ h.source) htwins (hb ▸ hx)
        have hsize := size_le_of_suffix r.rest_suffix
        dsimp only [Stretch.tail] at hsize
        apply (ih.clauseBody r.rest (by omega) hstep.faces hbehind hend
          (hin.suffix (r.rest_suffix.trans (List.suffix_cons _ _)))
          (hin'.suffix (r'.rest_suffix.trans (List.suffix_cons _ _)))).bind
        rintro q q' ⟨hpasses, hfiled⟩
        refine .ok fun hlined => ⟨?_, fun hk hl => ?_⟩
        · have hall := Passes.append htwins hpasses
          rwa [← hb, ← hb'] at hall
        obtain ⟨hkr, hkos⟩ := List.forall_mem_cons.1 hk
        have hout (i : Nat) (hi : i < (indented s.source r.node).span.start)
            (p : Placed) (hp : p ∈ indented s.source r.node :: q.nodes) :
            ¬(p.span.start ≤ i ∧ i < p.span.stop) := by
          have hmem : (⟨p, p.span.stop⟩ : Occupant) ∈
              (indented s.source r.node :: q.nodes).map fun p => ⟨p, p.span.stop⟩ :=
            List.mem_map_of_mem hp
          exact not_in_of_lt hlined hi _ hmem
        obtain ⟨-, hstop, -, hlater⟩ := hlined
        have hend' := hlater.le
        have hfurther := hfiled hkos fun i hi hi' hout =>
          hl i (by omega) hi' (List.forall_mem_cons.2
            ⟨fun h => absurd (h.2.trans_eq hstep.ends.stop) (Nat.not_lt.2 hi), hout⟩)
        rw [← hstep.ends.stop, ← hstep.ends.endLine, ← hstep.ends'.stop, ← hstep.ends'.endLine] at hfurther
        refine filed_cons hnext hstart hstart' (fun i hi hi' => ?_) (copied_indented hstep.node hkr) hfurther
        exact hl i hi (hi'.trans_le ((hstart.ge.trans hstop).trans hend')) (hout i (hi'.trans_eq hstart.symm))

/-! ### What holds statements -/

lemma attach_mirrors (hs : s.Genuine) (hs' : s'.Genuine) {o o' : Token} {os os' : List Occupant}
    {leads : List Comment} {slots : List Attach.Slot} {n : Node} {span : Span}
    (hfiled : (∀ o ∈ os, o.stmt.node.Keeps lost) →
      (∀ i, o.stop ≤ i → i < c.start → (∀ o ∈ os, ¬(o.stmt.span.start ≤ i ∧ i < o.stmt.span.stop)) →
        ¬lost i) →
      Filed s.comments s'.comments o.stop o.endLine o'.stop o'.endLine os os' c.start c'.start)
    (ho : Lined o.stop os c.start) (ho' : Lined o'.stop os' c'.start) (hline : o.endLine = o.line)
    (hline' : o'.endLine = o'.line)
    (hpart : Attach.Partition s.comments o c os leads slots (Attach.attach s.comments o c os).1
      (Attach.attach s.comments o c os).2)
    (hk : n.Keeps lost) (hn : n.isShown = true) (hl : n.kind ≠ .labeled) (hspan : n.span = some span)
    (hq : ∀ q ∈ (Attach.attach s.comments o c os).1, q.node ∈ n.children)
    (hstart : span.start ≤ o.stop)
    (hother : ∀ d ∈ n.children, d.isShown = true →
      (∃ q ∈ (Attach.attach s.comments o c os).1, d = q.node) ∨ ∀ s ∈ d.span, s.stop ≤ o.stop)
    (htail : ∀ i, span.stop ≤ i → i < c.start → ¬lost i) :
    List.Forall₂ SameShape ((Attach.attach s.comments o c os).1.map Placed.node)
      ((Attach.attach s'.comments o' c' os').1.map Placed.node) ∧
        (Attach.attach s'.comments o' c' os').2 = (Attach.attach s.comments o c os).2 := by
  have hall := hfiled (hpart.keeps hk hn hl hq) fun i hi hi' hout => by
    rcases Nat.lt_or_ge i span.stop with hlt | hge
    · refine hk.own hn hl span hspan i (hstart.trans hi) hlt fun d hd hdn sp hsp => ?_
      rcases hother d hd hdn with ⟨q, hqm, rfl⟩ | hbefore
      · rcases hpart.span_or_hidden hqm with ⟨p, hp, hpq⟩ | hhidden
        · obtain rfl : q.span = sp := Option.some.inj hsp
          rw [hpq]
          exact hout p hp
        · exact absurd hdn (by simp [hhidden])
      · have := hbefore sp hsp
        omega
    · exact htail i hge hi'
  rw [hline, hline'] at hall
  obtain ⟨hstmts, hlead⟩ := attach_same hs.ascending hs'.ascending hs.line_le hs'.line_le ho ho' hall
  exact ⟨List.forall₂_map_left_iff.2 (List.forall₂_map_right_iff.2 hstmts), hlead⟩

lemma endLine_of_pair {o c : Token} {inner : List TokenGroup} (hs : s.Genuine)
    (h : s.Has [.pair .curly o inner c]) : o.endLine = o.line := by
  obtain ⟨a, b, hscan⟩ := h.holds
  have ho : o.lexeme = .op (.opening .curly) := by
    cases hscan.matched _ (List.mem_singleton_self _) with
    | pair ho _ _ => exact ho
  refine hs.endLine_eq h (t := o) (by simp) (by simp [Token.isAutomatic, ho]) ?_
  rw [ho]
  decide

lemma block_mirrors (hs : s.Genuine) (hs' : s'.Genuine)
    (ih : (mirrorLaw s s').Below (8 * size gs + 6)) : (mirrorLaw s s').block gs := by
  intro lost x o c o' gs' c' z h
  obtain ⟨_, _, _, _, y, he, hno, hinner, hnc, -⟩ := h.twins.of_pair
  cases he
  obtain ⟨line, hr⟩ := hs.remarks
  obtain ⟨a, b, hscan⟩ := h.source.holds
  obtain ⟨a', b', hscan'⟩ := h.copy.holds
  have hbounds : ∀ t ∈ tokens gs, o.stop ≤ t.start := fun t ht =>
    List.rel_of_pairwise_cons hscan.chain.pairwise (by simp [ht])
  rw [block, block]
  apply (ih.items gs (by omega) ⟨hinner, h.source.inner, h.copy.inner⟩ hbounds hnc ⟨o, [], h.source⟩
    ⟨o', [], h.copy⟩).bind_of_ok
  intro os os' hos hos' hfiled
  obtain ⟨leads, slots, hpart⟩ := partition_block hr hscan hos
  have hle := (hscan.chain.mem (t := o) (by simp)).2.2
  have hle' := (hscan.chain.mem (t := c) (by simp)).2.2
  refine .ok fun hk => ?_
  have hall := attach_mirrors hs hs' hfiled (lined_items hs hscan.inner hos).1
    (lined_items hs' hscan'.inner hos').1 (endLine_of_pair hs h.source) (endLine_of_pair hs' h.copy) hpart
      hk rfl (by rintro ⟨⟩) rfl (fun q hq => List.mem_map_of_mem hq) hle
        (fun d hd _ => .inl ((List.mem_map.1 hd).imp fun q hq => ⟨hq.1, hq.2.symm⟩))
          fun i hi hi' => absurd (hle'.trans hi) (Nat.not_le.2 hi')
  exact .mk (form_block hall.1.length_eq.symm hall.2) rfl hall.1

lemma exists_clause {colon : Token} {rest : List TokenGroup} {nodes : List Placed} {body : Steps rest}
    (hsince : since (isOp .colon) gs = .leaf colon :: rest)
    (hnodes : rawNodes s false (upTo (isOp .colon) gs) = .ok nodes)
    (hbody : clauseBody s c rest = .ok body) : ∃ step, clause s t c gs = .ok step := by
  rw [clause]
  split
  · next h => cases h.symm.trans hsince
  · next h =>
    cases h.symm.trans hsince
    rw [hnodes]
    simp only [bind, Except.bind, hbody]
    exact ⟨_, rfl⟩

lemma copied_withLead {p p' : Placed} {lead lead' : Option String} (h : p.node.Copied lost p'.node)
    (ht : p'.layout.trailing = p.layout.trailing) :
    (withLead p lead).node.Copied lost (withLead p' lead').node := by
  have hsame {q : Placed} {l : Option String} : (withLead q l).node.span = q.node.span ∧
      (withLead q l).node.shape = q.node.shape ∧ (withLead q l).node.isShown = q.node.isShown ∧
        (withLead q l).layout = q.layout := by
    cases l with
    | none => exact ⟨rfl, rfl, rfl, rfl⟩
    | some text => exact ⟨rfl, rfl, by simp [withLead, Node.isShown, Node.pieces, Placed.node, Node.kind, Node.shape], rfl⟩
  intro hk
  refine (h (hk.congr hsame.1.symm hsame.2.1.symm hsame.2.2.1.symm)).relaid hsame.2.1 hsame.2.1 ?_
  show (withLead p' lead').layout.trailing = (withLead p lead).layout.trailing
  rw [hsame.2.2.2, hsame.2.2.2, ht]

lemma clause_mirrors (hs : s.Genuine) (hs' : s'.Genuine)
    (ih : (mirrorLaw s s').Below (8 * size gs + 5)) : (mirrorLaw s s').clause gs := by
  intro lost x t t' gs' y c c' h hend hin hin' hclause step hstep
  obtain ⟨colon, rest, nodes, body, qs, lead, hsince, hcolon, hnodes, hbody, hat, hrest, hnode⟩ :=
    of_clause hstep
  obtain ⟨_, _, w, he, hl, ht, hgs⟩ := h.of_leaf
  cases he
  have hclause' : isClause (.leaf t') = true := (blind_isClause _ _ (.leaf hl)).trans hclause
  -- what stands before the colon, the colon, and what stands behind it
  obtain ⟨u, hup, hsi⟩ := hgs.twins.cut (blind_isOp .colon) (k := false) fun _ =>
    .inr (.inl (by rw [hsince]; simp))
  obtain ⟨-, hgs0⟩ := of_since hsince
  rw [hsince] at hsi
  obtain ⟨colon', rest', v, hsince', hcl, hct, hbehind⟩ := hsi.of_leaf
  obtain rfl := hct.eq_last (by simp [isSemicolon, Token.isSemicolon, hcolon])
  have hs0 : .leaf colon :: rest <:+ gs := hsince ▸ since_suffix _ _
  have hs0' : .leaf colon' :: rest' <:+ gs' := hsince' ▸ since_suffix _ _
  have hsize := size_le_of_suffix hs0
  have hupTo := size_upTo_le (isOp .colon) gs
  rw [size_cons, weight_leaf] at hsize
  have hsuffix := hs0.trans (List.suffix_cons (.leaf t) gs)
  have hsuffix' := hs0'.trans (List.suffix_cons (.leaf t') gs')
  have hcw := hin.suffix hsuffix
  have hcw' := hin'.suffix hsuffix'
  obtain ⟨nodes', hnodes', hcopied⟩ := ih.rawNodes (upTo (isOp .colon) gs) (by omega)
    ⟨hup, h.source.tail.upTo _, h.copy.tail.upTo _⟩ false nodes hnodes
  obtain ⟨a, hscan⟩ := scanned_of_within hcw
  obtain ⟨a', hscan'⟩ := scanned_of_within hcw'
  have hbounds : ∀ u ∈ tokens rest, colon.stop ≤ u.start := fun u hu =>
    List.rel_of_pairwise_cons hscan.chain.pairwise (by simpa using hu)
  obtain ⟨body', hbody', hpasses, hfiled⟩ := ih.clauseBody rest (by omega)
    ⟨hbehind, hcw.has.tail, hcw'.has.tail⟩ hbounds hend (hcw.suffix (List.suffix_cons _ _))
    (hcw'.suffix (List.suffix_cons _ _)) body hbody
  obtain ⟨step', hstep'⟩ := exists_clause (t := t') hsince' hnodes' hbody'
  obtain ⟨_, _, _, _, qs', lead', hsince'', hcolon', hnodes'', hbody'', hat', hrest', hnode'⟩ :=
    of_clause hstep'
  cases hsince'.symm.trans hsince''
  cases hnodes'.symm.trans hnodes''
  cases hbody'.symm.trans hbody''
  refine ⟨step', hstep', ?_, fun htail hk => ?_⟩
  · have hall := Passes.append (ht.append (hup.append hct)) hpasses
    obtain ⟨-, hgs0'⟩ := of_since hsince'
    have heq : [.leaf t] ++ (upTo (isOp .colon) gs ++ [.leaf colon]) ++ rest = .leaf t :: gs := by
      conv_rhs => rw [hgs0]
      simp
    have heq' : [.leaf t'] ++ (upTo (isOp .colon) gs' ++ [.leaf colon']) ++ rest' = .leaf t' :: gs' := by
      conv_rhs => rw [hgs0']
      simp
    rwa [heq, heq', ← hrest, ← hrest'] at hall
  · obtain ⟨line, hr⟩ := hs.remarks
    obtain ⟨leads, slots, hpart⟩ := partition_clause hr hcw.encloses hbody
    have hline {s : TokenStream} {gs : List TokenGroup} {colon : Token} (hs : s.Genuine)
        (h : s.Has (.leaf colon :: gs)) (hl : colon.lexeme = .op .colon) : colon.endLine = colon.line := by
      refine hs.endLine_eq h (t := colon) (by simp) (by simp [Token.isAutomatic, hl]) ?_
      rw [hl]
      decide
    have hstart : t.start ≤ colon.stop := by
      obtain ⟨a, b, hall⟩ := h.source.holds
      have hmem' : colon ∈ tokens gs := by
        rw [hgs0, tokens_append]
        simp
      have := List.rel_of_pairwise_cons hall.chain.pairwise hmem'
      have := (hall.chain.mem (t := t) (by simp)).2.2
      have := (hall.chain.mem (t := colon) (List.mem_cons_of_mem _ hmem')).2.2
      omega
    rw [hrest] at htail
    rw [hnode] at hk htail ⊢
    rw [hnode']
    have hchildren : ∀ q ∈ (Attach.attach s.comments colon (next c body.rest)
        (body.nodes.map fun p => ⟨p, p.span.stop⟩)).1, q.node ∈ qs.map Placed.node := by
      rw [hat]
      exact fun q hq => List.mem_map_of_mem hq
    let occupants (ps : List Placed) : List Occupant := ps.map fun p => ⟨p, p.span.stop⟩
    have hbodies (hk : ∀ o ∈ occupants body.nodes, o.stmt.node.Keeps lost)
        (hl : ∀ i, colon.stop ≤ i → i < (next c body.rest).start →
          (∀ o ∈ occupants body.nodes, ¬(o.stmt.span.start ≤ i ∧ i < o.stmt.span.stop)) → ¬lost i) :
        Filed s.comments s'.comments colon.stop colon.endLine colon'.stop colon'.endLine
          (occupants body.nodes) (occupants body'.nodes) (next c body.rest).start
            (next c' body'.rest).start := by
      refine hfiled (fun p hp => hk _ (List.mem_map_of_mem hp)) fun i hi hi' hout => hl i hi hi' ?_
      rintro o ho
      obtain ⟨p, hp, rfl⟩ := List.mem_map.1 ho
      exact hout p hp
    have hall := attach_mirrors hs hs' hbodies (lined_clauseBody hs hscan.behind hbody)
        (lined_clauseBody hs' hscan'.behind hbody') (hline hs hcw.has hcolon)
          (hline hs' hcw'.has (hcl.trans hcolon)) hpart hk rfl (by rintro ⟨⟩) rfl
            (fun q hq => List.mem_cons_of_mem _ (hchildren q hq)) hstart ?_ htail
    · rw [hat, hat'] at hall
      have hheader : (raw s.source (.ofTokens t colon) .rawExpr nodes).node.Copied lost
          (raw s'.source (.ofTokens t' colon') .rawExpr nodes').node :=
        copied_raw (fun _ => by rintro ⟨⟩) (fun _ => rfl) (fun _ _ => form_rawExpr) hcopied
      exact .mk (form_caseClause hall.1.length_eq.symm) rfl
        (.cons (copied_withLead hheader rfl (hk.children rfl (by rintro ⟨⟩) _ (.head _))) hall.1)
    · rw [hat]
      intro d hd _
      rcases List.mem_cons.1 hd with rfl | hd
      · refine .inr fun sp hsp => ?_
        obtain rfl : (withLead (raw s.source (.ofTokens t colon) .rawExpr nodes) lead).span = sp :=
          Option.some.inj hsp
        cases lead <;> exact Nat.le_refl _
      · exact .inl ((List.mem_map.1 hd).imp fun q hq => ⟨hq.1, hq.2.symm⟩)

end Parser

end ParallelTests
