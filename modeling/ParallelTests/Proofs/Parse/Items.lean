import ParallelTests.Proofs.Parse.Label

namespace ParallelTests.Parser

open Scan TokenGroup

variable {s : TokenStream} {line : Nat} {gs inner : List TokenGroup}

lemma block_spec (hr : Remarks line s.comments) (ih : Specs s (8 * size inner + 6)) :
    BlockSpec s inner := by
  intro o c p a b hs h
  rw [block] at h
  obtain ⟨os, hos, h⟩ := Except.bind_eq_ok_iff.1 h
  generalize hat : Attach.attach s.comments o c os = r at h
  obtain ⟨qs, lead⟩ := r
  obtain rfl := Except.pure_eq_ok_iff.1 h
  obtain ⟨core, sems, rfl, hsems, hrows, hsp, hord⟩ := ih.items (by omega) hs.inner hos
  have hstands : ∀ o ∈ os, o.stmt.layout.Sound ∧ o.stmt.layout.trailing = none ∧
      o.stmt.shape.kind ≠ .comment := by
    intro o ho
    obtain ⟨st, hst⟩ := hrows.stands o.stmt (List.mem_map_of_mem ho)
    exact ⟨hst.layout, hst.trailing, hst.ne_comment⟩
  obtain ⟨hd, hl⟩ := dressed_of_attach hr hstands hsp hat
  have hlined : Lined o.stop os c.start :=
    hrows.lined hs.inner.left hsp (hord (Nat.le_refl _))
  exact ⟨reads_block hs hrows hd hsems hl (Attach.rising_attach hr.ascending hlined hat), rfl⟩

lemma of_expectEnd (h : expectEnd gs = .ok ()) : ∀ g ∈ gs.head?, g.isSemicolon = true := by
  cases gs with
  | nil => simp
  | cons g gs =>
    rw [expectEnd] at h
    split at h
    · next hg => simpa using hg
    · simp [fail] at h

lemma rows_stmt {src : List Char} {p : Placed} {ps : List Placed} {st : Stretch}
    {core sems : List TokenGroup} (hp : Stands src p st) (h : Rows src true core ps)
    (hend : ∀ g ∈ (core ++ sems).head?, g.isSemicolon = true) :
    Rows src true (st.toList ++ core) (p :: ps) := by
  have hrest : Rows src false core ps := by
    refine h.strict fun g hg => ?_
    exact hend g (by rw [List.head?_append, hg]; rfl)
  exact .cons (List.forall_mem_nil _) (by simp) hp (by simp) hrest

lemma rows_semis (pre : List TokenGroup) (fresh : Bool) {src : List Char} {ps : List Placed}
    {core sems : List TokenGroup} (h : Rows src true core ps) (hp : ∀ g ∈ pre, g.isSemicolon = true)
    (hs : ∀ g ∈ sems, g.isSemicolon = true) (hf : fresh = false → core ≠ [] → pre ≠ []) :
    ∃ core' sems', pre ++ (core ++ sems) = core' ++ sems' ∧ (∀ g ∈ sems', g.isSemicolon = true) ∧
      Rows src fresh core' ps ∧ (core' = [] ∨ core ≠ [] ∧ sems' = sems) := by
  cases ps with
  | nil =>
    obtain rfl := h.eq_nil
    exact ⟨[], pre ++ sems, by simp, List.forall_mem_append.2 ⟨hp, hs⟩, .nil, .inl rfl⟩
  | cons p ps =>
    have hne : core ≠ [] := by
      rintro rfl
      generalize hn : [] = gs at h
      cases h with
      | @cons _ _ _ _ st => simp [Stretch.toList] at hn
    exact ⟨pre ++ core, sems, by simp, hs, h.semis hp fun he => hf he hne, .inr ⟨hne, rfl⟩⟩

lemma start_of_rows {src : List Char} {ps : List Placed} {core sems rest : List TokenGroup}
    {g : TokenGroup} (h : Rows src true core ps) (hs : ∀ g ∈ sems, g.isSemicolon = true)
    (he : core ++ sems = g :: rest) (hg : g.isSemicolon = false) :
    ∃ p ps', ps = p :: ps' ∧ p.span.start = g.first.start := by
  cases h with
  | nil =>
    have := hs g (by rw [List.nil_append] at he; simp [he])
    simp [hg] at this
  | @cons _ _ pre _ st p ps hpre _ hp _ _ =>
    refine ⟨p, ps, rfl, ?_⟩
    cases pre with
    | nil =>
      obtain ⟨hd, _⟩ := List.cons.inj he
      rw [hp.span_eq, Stretch.span, Stretch.first]
      exact congrArg (·.first.start) hd
    | cons x pre =>
      obtain ⟨rfl, _⟩ := List.cons.inj he
      have := hpre x (by simp)
      simp [hg] at this

lemma of_isClause {g : TokenGroup} (h : isClause g = true) :
    ∃ t, g = .leaf t ∧ t.isSemicolon = false := by
  cases g with
  | leaf t =>
    refine ⟨t, rfl, ?_⟩
    simp only [isClause, Token.isKeyword, Bool.or_eq_true, decide_eq_true_eq] at h
    rcases h with h | h <;> simp [Token.isSemicolon, h]
  | pair => simp [isClause] at h

lemma next_of_rows {src : List Char} {closer : Token} {os : List Occupant}
    {core sems : List TokenGroup} (h : Rows src true core (os.map (·.stmt)))
    (hs : ∀ g ∈ sems, g.isSemicolon = true)
    (hc : ∀ g ∈ (core ++ sems).head?, isClause g = true) :
    (next closer (core ++ sems)).start =
      (os.head?.map (·.stmt.span.start)).getD closer.start := by
  cases hgs : core ++ sems with
  | nil =>
    obtain ⟨rfl, _⟩ := List.append_eq_nil_iff.1 hgs
    have hnil : os.map (·.stmt) = [] := by
      generalize hn : [] = gs at h
      generalize os.map (·.stmt) = ps at h ⊢
      cases h with
      | nil => rfl
      | @cons _ _ _ _ st => simp [Stretch.toList] at hn
    rw [List.map_eq_nil_iff.1 hnil]
    rfl
  | cons g rest =>
    obtain ⟨t, rfl, ht⟩ := of_isClause (hc g (by simp [hgs]))
    obtain ⟨p, ps, hps, hstart⟩ := start_of_rows h hs hgs ht
    cases os with
    | nil => simp at hps
    | cons o os =>
      obtain ⟨rfl, _⟩ := List.cons.inj hps
      exact hstart.symm

lemma items_spec (ih : Specs s (8 * size gs + 5)) : ItemsSpec s gs := by
  intro closer os a b hs h
  rw [items.eq_def] at h
  split at h
  · obtain rfl := Except.pure_eq_ok_iff.1 h
    exact ⟨[], [], rfl, by simp, .nil, trivial, by simp⟩
  · next g rest =>
    have hg := weight_pos g
    split at h
    · next hsemi =>
      obtain ⟨core, sems, rfl, hsems, hrows, hsp⟩ := ih.items (by simp; omega) hs.tail h
      obtain ⟨core', sems', he, hsems', hrows', _⟩ := rows_semis [g] true hrows
        (by simpa using hsemi) hsems (by simp)
      exact ⟨core', sems', he, hsems', hrows', hsp⟩
    · next hsemi =>
      split at h
      · next hclause =>
        obtain ⟨step, hstep, h⟩ := Except.bind_eq_ok_iff.1 h
        obtain ⟨os', hos, h⟩ := Except.bind_eq_ok_iff.1 h
        obtain rfl := Except.pure_eq_ok_iff.1 h
        obtain ⟨t, rfl, ht⟩ := of_isClause hclause
        obtain ⟨st, pre, hst, hpre, hstands, hk, hcol, hnext, hrise⟩ := ih.clause (by simp) hs ht hstep
        have hsize := size_le_of_suffix step.rest_suffix
        rw [hst] at hs
        obtain ⟨core, sems, hrest, hsems, hrows, hsp, hord⟩ :=
          ih.items (by simp; omega) hs.right.right hos
        rw [hrest] at hnext hst hcol
        have hspaced : Spaced closer.start (⟨step.node, (next closer step.rest).start⟩ :: os') := by
          refine ⟨fun _ => ?_, hsp⟩
          rw [hrest]
          exact next_of_rows hrows hsems hnext
        have hfresh : decide (st.last.lexeme = .op .colon) = false → core ≠ [] → pre ≠ [] := by
          intro hf hne hp
          have hnil := hcol.resolve_left (by simpa using hf) hp
          exact hne (List.append_eq_nil_iff.1 hnil).1
        obtain ⟨core', sems', he, hsems', hrows', _⟩ := rows_semis pre _ hrows hpre hsems hfresh
        refine ⟨st.toList ++ core', sems', by rw [hst, he, List.append_assoc], hsems', ?_, hspaced,
          fun hb => List.forall_mem_cons.2 ⟨⟨fun hne => absurd hk hne, hrise hb⟩, hord hb⟩⟩
        exact .cons (List.forall_mem_nil _) (by simp) hstands (fun hf => ⟨hk, by simpa using hf⟩) hrows'
      · obtain ⟨step, hstep, h⟩ := Except.bind_eq_ok_iff.1 h
        obtain ⟨⟨⟩, hend, h⟩ := Except.bind_eq_ok_iff.1 h
        obtain ⟨os', hos, h⟩ := Except.bind_eq_ok_iff.1 h
        obtain rfl := Except.pure_eq_ok_iff.1 h
        obtain ⟨st, hst, hstands, hlay, hk⟩ := ih.stmt (by simp) hs (by simpa using hsemi) hstep
        have hsize : size step.rest ≤ size rest := size_le_of_suffix step.rest_suffix
        replace hst : g :: rest = st.toList ++ step.rest := hst
        rw [hst] at hs
        obtain ⟨core, sems, hrest, hsems, hrows, hsp, hord⟩ := ih.items (by simp; omega) hs.right hos
        have hend' := of_expectEnd hend
        rw [hrest] at hend' hst
        have hin := stands_indented hstands hlay
        exact ⟨st.toList ++ core, sems, by rw [List.append_assoc]; exact hst, hsems,
          rows_stmt hin hrows hend', ⟨fun h => absurd h hk, hsp⟩,
          fun hb => List.forall_mem_cons.2 ⟨⟨fun _ => rfl, (hin.ordered hk).starts⟩, hord hb⟩⟩

lemma clauseBody_spec (ih : Specs s (8 * size gs + 5)) : ClauseBodySpec s gs := by
  intro closer r a b hs h
  rw [clauseBody.eq_def] at h
  split at h
  · obtain rfl := Except.pure_eq_ok_iff.1 h
    exact ⟨[], [], rfl, by simp, .nil, .inl rfl, by simp, by simp⟩
  · next g rest =>
    have hg := weight_pos g
    split at h
    · next hclause =>
      obtain rfl := Except.pure_eq_ok_iff.1 h
      exact ⟨[], [], rfl, by simp, .nil, .inl rfl, by simpa using hclause, by simp⟩
    · split at h
      · next hsemi =>
        obtain ⟨r', hr', h⟩ := Except.bind_eq_ok_iff.1 h
        obtain rfl := Except.pure_eq_ok_iff.1 h
        obtain ⟨core, sems, hrest, hsems, hrows, hend, hnext, hk⟩ :=
          ih.clauseBody (by simp; omega) hs.tail hr'
        obtain ⟨core', sems', he, hsems', hrows', hcore⟩ := rows_semis [g] true hrows
          (by simpa using hsemi) hsems (by simp)
        refine ⟨core', sems', ?_, hsems', hrows', ?_, hnext, hk⟩
        · calc g :: rest
            _ = g :: (core ++ (sems ++ r'.rest)) := congrArg (g :: ·) hrest
            _ = [g] ++ (core ++ sems) ++ r'.rest := by simp
            _ = core' ++ (sems' ++ r'.rest) := by rw [he, List.append_assoc]
        · rcases hcore with hcore | ⟨hne, rfl⟩
          · exact .inl hcore
          · exact .inr (hend.resolve_left hne)
      · next hsemi =>
        obtain ⟨step, hstep, h⟩ := Except.bind_eq_ok_iff.1 h
        obtain ⟨⟨⟩, hend, h⟩ := Except.bind_eq_ok_iff.1 h
        obtain ⟨r', hr', h⟩ := Except.bind_eq_ok_iff.1 h
        obtain rfl := Except.pure_eq_ok_iff.1 h
        obtain ⟨st, hst, hstands, hlay, hk⟩ := ih.stmt (by simp) hs (by simpa using hsemi) hstep
        have hsize : size step.rest ≤ size rest := size_le_of_suffix step.rest_suffix
        replace hst : g :: rest = st.toList ++ step.rest := hst
        rw [hst] at hs
        obtain ⟨core, sems, hrest, hsems, hrows, hclosed, hnext, hk'⟩ :=
          ih.clauseBody (by simp; omega) hs.right hr'
        have hend' := of_expectEnd hend
        rw [hrest] at hend' hst
        refine ⟨st.toList ++ core, sems, by rw [List.append_assoc]; exact hst, hsems,
          rows_stmt (stands_indented hstands hlay) hrows hend', .inr fun hs => ?_, hnext,
          List.forall_mem_cons.2 ⟨hk, hk'⟩⟩
        -- a clause does not start where a semicolon is expected
        rcases hclosed with rfl | hclosed
        · subst hs
          rw [List.nil_append, List.nil_append] at hend'
          cases hr : r'.rest with
          | nil => rfl
          | cons g' rest' =>
            rw [hr] at hend' hnext
            obtain ⟨t, rfl, ht⟩ := of_isClause (hnext g' rfl)
            have := hend' _ rfl
            simp [TokenGroup.isSemicolon, ht] at this
        · exact hclosed hs

end ParallelTests.Parser
