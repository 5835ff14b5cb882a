import ParallelTests.Proofs.Parse.Literal

namespace ParallelTests.Parser

open Scan TokenGroup

variable {s : TokenStream} {st : Stretch} {gs : List TokenGroup}

lemma statement_append (st : Stretch) :
    st.toList = st.statement.toList ++ since isSemicolon st.tail := by
  rw [Stretch.toList, Stretch.toList, Stretch.statement, List.cons_append, upTo_append_since]

lemma last_of_forall (hm : ∀ g ∈ st.toList, g.Matched) (h : ∀ g ∈ st.toList, g.isSemicolon = false) :
    st.last.isSemicolon = false := by
  have hg : st.tail.getLastD st.head ∈ st.toList := List.getLastD_mem_cons
  exact (hm _ hg).last (h _ hg)

lemma isSemicolon_of_mem_statement {g : TokenGroup} (hh : st.head.isSemicolon = false)
    (hg : g ∈ st.statement.toList) : g.isSemicolon = false := by
  rcases List.mem_cons.1 hg with rfl | hg
  · exact hh
  · exact not_of_mem_upTo hg

lemma last_statement {a b : Nat} (hs : Scanned s.source.chars a st.toList b)
    (hh : st.head.isSemicolon = false) : st.statement.last.isSemicolon = false := by
  rw [statement_append] at hs
  exact last_of_forall hs.left.matched fun g hg => isSemicolon_of_mem_statement hh hg

lemma start_lt_stop {a b : Nat} (hs : Scanned s.source.chars a st.toList b)
    (hh : st.head.isSemicolon = false) : st.first.start < st.last.stop :=
  hs.lt ((hs.matched st.head (List.mem_cons_self ..)).not_automatic hh)

lemma rawStmt_spec (ih : Specs s (8 * st.size + 1)) : RawStmtSpec s st := by
  intro step a b hs hh h
  rw [rawStmt] at h
  obtain ⟨nodes, hn, h⟩ := Except.bind_eq_ok_iff.1 h
  obtain rfl := Except.pure_eq_ok_iff.1 h
  have hsize := st.size_statement_le
  have hs' := hs
  rw [statement_append] at hs'
  obtain ⟨hr, hk⟩ := ih.rawNodes (by simp; omega) hs'.left.trim.1 hn
  refine ⟨st.statement, statement_append st, reads_raw rfl hr (fun _ => rfl) (fun _ => rfl) ?_
    (fun _ => start_lt_stop hs'.left hh) hk, ⟨rfl, rfl⟩, last_statement hs hh⟩
  exact List.forall_mem_map.2 fun p hp => .inl (hk p hp)

lemma rowed_body {before inner : List TokenGroup} {o c : Token} {header : List Placed} {body : Placed}
    {a b : Nat} (hraw : RawNodesSpec s before) (hblock : BlockSpec s inner)
    (hs : Scanned s.source.chars a (before ++ [.pair .curly o inner c]) b)
    (hh : rawNodes s false before = .ok header) (hb : block s o inner c = .ok body) :
    Rowed s.source.chars a (header ++ [body]) b ∧ (∀ p ∈ header, p.shape.kind = .funcLit) ∧
      body.shape.kind = .block ∧ body.span = .ofTokens o c := by
  obtain ⟨m, h₁, h₂⟩ := hs.split
  obtain ⟨hr, hk⟩ := hraw h₁ hh
  obtain ⟨hread, hkb⟩ := hblock h₂ hb
  exact ⟨hr.append (hread.rowed h₂ (not_automatic_of_pair h₂)), hk, hkb, hread.span_eq⟩

lemma takesBare_led (xs : List TokenGroup) (last : Stretch) {t : Token} {rest : List TokenGroup}
    {ps : List Placed} {span : Span} {a b : Nat} (hs : Scanned s.source.chars a (.leaf t :: gs) b)
    (ht : t.isSemicolon = false) (hgs : gs = xs ++ (last.toList ++ rest))
    (hspan : span = (Span.ofToken t).through last.span)
    (hr : Scanned s.source.chars t.stop (xs ++ last.toList) last.last.stop →
      Rowed s.source.chars t.stop ps last.last.stop)
    (hk : ∀ p ∈ ps, p.shape.kind = .funcLit ∨ p.shape.kind = .block ∨ p.shape.kind = .rawStmt)
    (hl : last.last.isSemicolon = false) :
    TakesBare s.source.chars (.leaf t :: gs) (raw s.source span .rawStmt ps) rest := by
  obtain ⟨st, hst, hread, hlast⟩ := takes_led xs last ps [] (.rawStmt (ps.map Placed.node)) hs
    ht hgs hspan (fun h => ⟨hr h, (hr h).rising⟩) rfl rfl (List.forall_mem_map.2 hk) (by simp)
  exact ⟨st, hst, hread, ⟨rfl, rfl⟩, by rw [hlast, hl]⟩

lemma last_pair {k : Bracket} {o c : Token} {inner : List TokenGroup} {a b : Nat}
    (hs : Scanned s.source.chars a (.pair k o inner c :: gs) b) :
    (⟨.pair k o inner c, []⟩ : Stretch).last.isSemicolon = false :=
  (hs.matched _ (List.mem_cons_self ..)).last rfl

lemma takesBare_body {t : Token} {before inner after : List TokenGroup} {o c : Token}
    {header : List Placed} {body : Placed} {a b : Nat} (hraw : RawNodesSpec s before)
    (hblock : BlockSpec s inner)
    (hs : Scanned s.source.chars a (.leaf t :: (before ++ .pair .curly o inner c :: after)) b)
    (ht : t.isSemicolon = false) (hh : rawNodes s false before = .ok header) (hb : block s o inner c = .ok body) :
    TakesBare s.source.chars (.leaf t :: (before ++ .pair .curly o inner c :: after))
      (raw s.source ((Span.ofToken t).through body.span) .rawStmt (header ++ [body])) after := by
  have hs' := hs.tail
  rw [← List.singleton_append, ← List.append_assoc] at hs'
  obtain ⟨_, hk, hkb, hspan⟩ := rowed_body hraw hblock hs'.left hh hb
  refine takesBare_led before ⟨.pair .curly o inner c, []⟩ hs ht rfl
    (congrArg (Span.ofToken t).through hspan) (fun h => (rowed_body hraw hblock h hh hb).1) ?_
    (last_pair hs'.left.right)
  exact List.forall_mem_append.2 ⟨fun p hp => .inl (hk p hp), by simp [hkb]⟩

lemma bodyStmt_spec (ih : Specs s (8 * size gs)) : BodyStmtSpec s gs := by
  intro t closer step a b hs ht h
  rw [bodyStmt] at h
  split at h
  · simp [fail] at h
  · next bd _ =>
    obtain ⟨before, o, inner, c, after, rfl⟩ := bd
    obtain ⟨header, hh, h⟩ := Except.bind_eq_ok_iff.1 h
    obtain ⟨body, hb, h⟩ := Except.bind_eq_ok_iff.1 h
    obtain rfl := Except.pure_eq_ok_iff.1 h
    have hsize := size_append before (.pair .curly o inner c :: after)
    simp only [size_cons, weight_pair] at hsize
    have hraw : RawNodesSpec s before := ih.rawNodes (by omega)
    have hblock : BlockSpec s inner := ih.block (by omega)
    exact takesBare_body hraw hblock hs ht hh hb

lemma takesBare_else {t : Token} {before inner after rest : List TokenGroup} {o c : Token}
    {g : TokenGroup} {last : Stretch} {header : List Placed} {body alt : Placed} {a b : Nat}
    (hraw : RawNodesSpec s before) (hblock : BlockSpec s inner)
    (hs : Scanned s.source.chars a (.leaf t :: (before ++ .pair .curly o inner c :: g :: after)) b)
    (ht : t.isSemicolon = false) (hh : rawNodes s false before = .ok header) (hb : block s o inner c = .ok body)
    (hafter : after = last.toList ++ rest) (halt : Reads s.source.chars alt last)
    (hf : last.first.isAutomatic = false) (hk : alt.shape.kind = .block ∨ alt.shape.kind = .rawStmt)
    (hl : last.last.isSemicolon = false) :
    TakesBare s.source.chars (.leaf t :: (before ++ .pair .curly o inner c :: g :: after))
      (raw s.source ((Span.ofToken t).through alt.span) .rawStmt (header ++ [body, alt])) rest := by
  subst hafter
  have hsplit (xs : List TokenGroup) : before ++ .pair .curly o inner c :: g :: xs =
      before ++ [.pair .curly o inner c] ++ [g] ++ xs := by simp
  have hs' := hs.tail
  rw [hsplit] at hs'
  obtain ⟨_, hkh, hkb, _⟩ := rowed_body hraw hblock hs'.left.left hh hb
  refine takesBare_led (before ++ [.pair .curly o inner c] ++ [g]) last hs ht (hsplit _)
    (congrArg (Span.ofToken t).through halt.span_eq) (fun h => ?_) ?_ hl
  · obtain ⟨m, h₁, h₂⟩ := h.split
    have hrow := (rowed_body hraw hblock h₁.left hh hb).1.append (halt.rowed h₂ hf)
    simpa using hrow
  · refine List.forall_mem_append.2 ⟨fun p hp => .inl (hkh p hp), ?_⟩
    simpa [hkb] using .inr hk

lemma ifStmt_spec (ih : Specs s (8 * size gs)) : IfStmtSpec s gs := by
  intro t closer step a b hs ht h
  rw [ifStmt] at h
  split at h
  · simp [fail] at h
  · next bd _ =>
    obtain ⟨before, o, inner, c, after, rfl⟩ := bd
    obtain ⟨header, hh, h⟩ := Except.bind_eq_ok_iff.1 h
    obtain ⟨body, hb, h⟩ := Except.bind_eq_ok_iff.1 h
    have hsize := size_append before (.pair .curly o inner c :: after)
    simp only [size_cons, weight_pair] at hsize
    have hraw : RawNodesSpec s before := ih.rawNodes (by omega)
    have hblock : BlockSpec s inner := ih.block (by omega)
    have hbody := takesBare_body hraw hblock hs ht hh hb
    cases after with
    | nil =>
      obtain rfl := Except.pure_eq_ok_iff.1 h
      exact ⟨hbody, rfl⟩
    | cons g rest =>
      dsimp only at h
      split at h
      · simp only [size_cons] at hsize
        have hrest : Scanned s.source.chars a rest b := hs.tail.right.tail.tail
        rcases rest with _ | ⟨i | ⟨k, o', inner', c'⟩, more⟩
        · simp [fail] at h
        · dsimp only at h
          split at h
          · next hi =>
            obtain ⟨step', hstep, h⟩ := Except.bind_eq_ok_iff.1 h
            obtain rfl := Except.pure_eq_ok_iff.1 h
            have hif : IfStmtSpec s more := ih.ifStmt (by simp at hsize; omega)
            have hsemi := isSemicolon_of_isKeyword hi
            obtain ⟨⟨last, hlast, hread, _, hl⟩, hk⟩ := hif hrest hsemi hstep
            have hauto : last.first.isAutomatic = false :=
              Stretch.first_of_cons hlast ▸ Token.isAutomatic_of_isSemicolon hsemi
            exact ⟨takesBare_else hraw hblock hs ht hh hb hlast hread hauto (.inr hk) hl, rfl⟩
          · simp [fail] at h
        · cases k with
          | curly =>
            obtain ⟨alt, halt, h⟩ := Except.bind_eq_ok_iff.1 h
            obtain rfl := Except.pure_eq_ok_iff.1 h
            have hblock' : BlockSpec s inner' := ih.block (by simp at hsize; omega)
            obtain ⟨hread, hk⟩ := hblock' hrest.head halt
            have hlast := last_pair hrest
            have hauto := not_automatic_of_pair hrest.head
            exact ⟨takesBare_else hraw hblock hs ht hh hb rfl hread hauto (.inl hk) hlast, rfl⟩
          | _ => simp [fail] at h
      · obtain rfl := Except.pure_eq_ok_iff.1 h
        exact ⟨hbody, rfl⟩

end ParallelTests.Parser
