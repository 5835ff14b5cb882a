import ParallelTests.Proofs.Parse.Specs

namespace ParallelTests.Parser

open Scan TokenGroup

variable {s : TokenStream} {st : Stretch} {gs : List TokenGroup}

lemma endsLine_of_isComma {g : TokenGroup} (h : g.isOp .comma = true) :
    g.last.lexeme.endsLine = false := by
  cases g with
  | leaf t =>
    have hl : t.lexeme = .op .comma := by simpa [TokenGroup.isOp, Token.isOp] using h
    simp [TokenGroup.last, hl, Lexeme.endsLine]
  | pair => simp [TokenGroup.isOp] at h

lemma opened_of_chain {t : Token} (h : Chain s.source.chars (t :: tokens gs))
    (ht : t.lexeme.endsLine = false) : Opened gs := fun _ hm =>
  h.first_of_mem_split ht (fun _ => endsLine_of_isComma) hm

lemma opened_of_semis {a b : Nat} (h : Scanned s.source.chars a gs b)
    (hs : ∀ g ∈ gs, g.isSemicolon = false) : Opened gs := fun _ hm =>
  h.first_of_mem_split hs hm

lemma opened_arguments {o c : Token} {inner : List TokenGroup} {a b : Nat}
    (h : Scanned s.source.chars a [.pair .round o inner c] b) : Opened inner := by
  have hch := h.chain
  rw [tokens_cons, spelled_pair, tokens_nil, List.append_nil, ← List.cons_append] at hch
  have ho : o.lexeme = .op (.opening .round) := by
    cases h.matched _ (List.mem_singleton_self _) with
    | pair ho _ _ => exact ho
  exact opened_of_chain hch.left (by simp [ho, Lexeme.endsLine])

lemma reads_raw {shape : List Node → Shape} {nodes : List Placed} {span : Span} (hspan : span = st.span)
    (hr : Rowed s.source.chars st.first.start nodes st.last.stop)
    (hk : ∀ ns, (shape ns).kind.isWoven = true) (hc : ∀ ns, (shape ns).children = ns)
    (hp : (shape (nodes.map Placed.node)).Proper IsIdentifier)
    (hlt : (shape (nodes.map Placed.node)).kind.isStmt = true → st.first.start < st.last.stop)
    (hf : ∀ p ∈ nodes, p.shape.kind = .funcLit) :
    Reads s.source.chars (raw s.source span shape nodes) st :=
  reads_woven [] hspan hr (hk _) (hc _) hp (by simp) hlt
    (hr.rising_succ fun p hp => by rw [hf p hp]; rfl)

lemma expr_spec (ih : Specs s (8 * st.size + 1)) : ExprSpec s st := by
  intro after p a b hs h
  rw [expr] at h
  obtain ⟨o, ho, h⟩ := Except.bind_eq_ok_iff.1 h
  split at h
  · next node hn =>
    obtain rfl := Except.pure_eq_ok_iff.1 h
    obtain ⟨⟨pre, hpre, hread⟩, hk⟩ := ih.primary (by omega) hs ho
    rw [List.append_nil] at hpre
    exact ⟨Stretch.eq_of_toList_eq hpre ▸ hread, hk⟩
  · obtain ⟨nodes, hn, h⟩ := Except.bind_eq_ok_iff.1 h
    obtain rfl := Except.pure_eq_ok_iff.1 h
    obtain ⟨hr, hk⟩ := ih.rawNodes (by simp) hs.trim.1 hn
    exact ⟨reads_raw rfl hr (fun _ => rfl) (fun _ => rfl) (List.forall_mem_map.2 hk) (by rintro ⟨⟩)
      hk, rfl⟩

lemma isStmt_of_isExpr {k : Kind} (h : k.isExpr = true) : k.isStmt = false := by
  cases k <;> simp_all [Kind.isExpr, Kind.isStmt]

lemma isWoven_of_isExpr {k : Kind} (h : k.isExpr = true) : k.isWoven = true := by
  cases k <;> simp_all [Kind.isExpr, Kind.isWoven]

lemma reads_token (shape : Shape) {t : Token} {a b : Nat} (h : Scanned s.source.chars a [.leaf t] b)
    (hn : t.isAutomatic = false) (hk : shape.kind.isExpr = true) (hp : shape.Proper IsIdentifier)
    (hc : shape.children = []) :
    Reads s.source.chars { span := .ofToken t, shape := shape, pieces := some [.text t.text] }
      ⟨.leaf t, []⟩ := by
  have hm : t ∈ tokens [.leaf t] := by simp
  obtain ⟨hs, hs', hle⟩ := h.chain.mem hm
  obtain ⟨ms, hr⟩ := hs.to hs' hle
  have hb := isWoven_of_isExpr hk
  rw [← h.chain.text hm hn]
  refine ⟨rfl, rfl, ?_, .mk hp ⟨hb, .text ?_⟩ ?_ ?_, fun he => ?_, ?_⟩
  · exact .woven (Kind.ne_block_of_isWoven hb) (.text hs hr (fun _ _ _ => rfl) (.done hs'.le_length))
  · simp [Node.children, Placed.node, Node.shape, hc]
  · rintro _ ⟨⟩
    exact ⟨.ofToken t, rfl, .text hle .nil⟩
  · simp [Node.children, Placed.node, Node.shape, hc]
  · simp [isStmt_of_isExpr hk] at he
  · simpa [Placed.inner, hc] using Rising.nil _ _

lemma reads_ident {t : Token} {name : String} {a b : Nat} (h : Scanned s.source.chars a [.leaf t] b)
    (hl : t.lexeme = .ident name) : Reads s.source.chars (.ident t name) ⟨.leaf t, []⟩ := by
  have ht : name = t.text := by rw [Token.text, hl, Lexeme.text]
  have := reads_token (.ident name) h (by simp [Token.isAutomatic, hl]) rfl
    (h.chain.isIdentifier (t := t) (by simp) hl) rfl
  rw [← ht] at this
  exact this

lemma reads_basicLit {t : Token} {a b : Nat} (h : Scanned s.source.chars a [.leaf t] b)
    (hn : t.isAutomatic = false) : Reads s.source.chars (.basicLit t) ⟨.leaf t, []⟩ :=
  reads_token (.basicLit t.text) h hn rfl trivial rfl

lemma takes_operand {node : Placed} {t : Token} {step : Step gs} {a b : Nat}
    (ih : TrailersSpec s gs) (hs : Scanned s.source.chars a (.leaf t :: gs) b)
    (hn : Reads s.source.chars node ⟨.leaf t, []⟩) (ht : t.isAutomatic = false)
    (hk : node.shape.kind.isExpr = true) (h : trailers s t node gs = .ok step) :
    Takes s.source.chars (.leaf t :: gs) step.node step.rest ∧
      step.node.shape.kind.isExpr = true := by
  have hs' : Scanned s.source.chars a ((⟨.leaf t, []⟩ : Stretch).toList ++ gs) b := hs
  exact ih hs' hn ht hk h

lemma takes_led (xs : List TokenGroup) (last : Stretch) (ps : List Placed) (pre : List Node)
    (shape : Shape) {t : Token} {rest : List TokenGroup} {span : Span} {a b : Nat}
    (hs : Scanned s.source.chars a (.leaf t :: gs) b) (ht : t.isSemicolon = false)
    (hgs : gs = xs ++ (last.toList ++ rest)) (hspan : span = (Span.ofToken t).through last.span)
    (hr : Scanned s.source.chars t.stop (xs ++ last.toList) last.last.stop →
      Rowed s.source.chars t.stop ps last.last.stop ∧
        Rising t.stop (pre.flatMap Node.starts ++ startsIn ps) last.last.stop)
    (hk : shape.kind.isWoven = true) (hc : shape.children = pre ++ ps.map Placed.node)
    (hp : shape.Proper IsIdentifier)
    (hf : ∀ n ∈ pre, Woven s.source.chars n ∧ n.kind.isSilent = true) :
    ∃ st : Stretch, .leaf t :: gs = st.toList ++ rest ∧
      Reads s.source.chars
        { span := span, shape := shape, pieces := s.source.pieces span pre.length ps } st ∧
      st.last = last.last := by
  subst hgs
  have hlast := Stretch.last_append (.leaf t) xs last
  have hst : .leaf t :: (xs ++ (last.toList ++ rest)) =
      (⟨.leaf t, xs ++ last.toList⟩ : Stretch).toList ++ rest := by simp [Stretch.toList]
  rw [hst] at hs
  have htrim := hs.left.trim.1
  rw [hlast] at htrim
  have hlt : t.start < t.stop := (htrim.chain.hop (t := t) (by simp [Stretch.toList])
    (Token.isAutomatic_of_isSemicolon ht)).lt
  obtain ⟨hrow, hrise⟩ := hr htrim.behind
  refine ⟨⟨.leaf t, xs ++ last.toList⟩, hst, reads_woven pre ?_ ?_ hk hc hp hf (fun _ => ?_) ?_, hlast⟩
  · rw [hspan, Stretch.span_append]
  · rw [hlast]
    exact hrow.from_left htrim.sync_left hlt.le
  · rw [hlast]
    exact hlt.trans_le hrow.le
  · rw [hlast]
    exact hrise.mono hlt (Nat.le_refl _)

lemma primary_spec (ih : Specs s (8 * st.size)) : PrimarySpec s st := by
  intro step a b hs h
  have htail := st.size_tail_lt
  obtain ⟨g, gs⟩ := st
  have hhead : Scanned s.source.chars a [g] b := hs.head
  rw [primary] at h
  split at h
  · simp [pure, Except.pure] at h
  · next t hd =>
    obtain rfl : g = .leaf t := hd
    have htr : TrailersSpec s gs := ih.trailers (by simp)
    split at h
    · next hl =>
      split at h
      · simp [pure, Except.pure] at h
      · next inner hi =>
        obtain ⟨o, ho, h⟩ := Except.bind_eq_ok_iff.1 h
        split at h
        · simp [pure, Except.pure] at h
        · next step' =>
          obtain rfl := Option.some.inj (Except.pure_eq_ok_iff.1 h)
          have hi' : gs = inner.toList := Stretch.ofList?_eq_some_iff.1 hi
          subst hi'
          obtain ⟨⟨pre, hpre, hread⟩, hk⟩ :=
            ih.primary (by simp) (hs.tail (g := .leaf t)) ho
          have hs' : Scanned s.source.chars a (.leaf t :: (pre.toList ++ step'.rest)) b := hpre ▸ hs
          have hauto : pre.first.isAutomatic = false :=
            hs'.first_not_automatic (by simp [hl, Lexeme.endsLine])
          obtain ⟨st, hst, hr, _⟩ := takes_led [] pre [step'.node] []
            (.star step'.node.node) hs (by simp [Token.isSemicolon, hl]) hpre
            (congrArg (Span.ofToken t).through hread.span_eq)
            (fun h => ⟨hread.rowed h hauto, (hread.rowed h hauto).rising⟩) rfl rfl hk (by simp)
          exact ⟨⟨st, hst, hr⟩, rfl⟩
    · next name hl =>
      obtain ⟨r, hr, h⟩ := Except.bind_eq_ok_iff.1 h
      obtain rfl := Option.some.inj (Except.pure_eq_ok_iff.1 h)
      exact takes_operand htr hs (reads_ident hhead hl) (by simp [Token.isAutomatic, hl]) rfl hr
    · next hl =>
      obtain ⟨r, hr, h⟩ := Except.bind_eq_ok_iff.1 h
      obtain rfl := Option.some.inj (Except.pure_eq_ok_iff.1 h)
      have hauto : t.isAutomatic = false := by simp [Token.isAutomatic, hl]
      exact takes_operand htr hs (reads_basicLit hhead hauto) hauto rfl hr
    · next hl =>
      obtain ⟨r, hr, h⟩ := Except.bind_eq_ok_iff.1 h
      obtain rfl := Option.some.inj (Except.pure_eq_ok_iff.1 h)
      have hauto : t.isAutomatic = false := by simp [Token.isAutomatic, hl]
      exact takes_operand htr hs (reads_basicLit hhead hauto) hauto rfl hr
    · next hl =>
      obtain ⟨r, hr, h⟩ := Except.bind_eq_ok_iff.1 h
      obtain rfl := Option.some.inj (Except.pure_eq_ok_iff.1 h)
      have hauto : t.isAutomatic = false := by simp [Token.isAutomatic, hl]
      exact takes_operand htr hs (reads_basicLit hhead hauto) hauto rfl hr
    · next hl =>
      obtain ⟨o, ho, h⟩ := Except.bind_eq_ok_iff.1 h
      split at h
      · simp [pure, Except.pure] at h
      · next step' =>
        obtain ⟨r, hr, h⟩ := Except.bind_eq_ok_iff.1 h
        obtain rfl := Option.some.inj (Except.pure_eq_ok_iff.1 h)
        obtain ⟨⟨pre, hpre, hread⟩, hk⟩ :=
          ih.funcLit (by simp) hs (by simp [Token.isSemicolon, hl]) ho
        have hsize : size step'.rest ≤ size gs := size_le_of_suffix step'.rest_suffix
        have hfirst : pre.first = t := by
          obtain ⟨hd, _⟩ := List.cons.inj hpre
          rw [Stretch.first, ← hd, TokenGroup.first]
        have hspec : TrailersSpec s step'.rest := ih.trailers (by simp; omega)
        have hs' : Scanned s.source.chars a (pre.toList ++ step'.rest) b := hpre.symm ▸ hs
        have hauto : pre.first.isAutomatic = false := by simp [hfirst, Token.isAutomatic, hl]
        have htk := hspec hs' hread hauto (by rw [hk]; rfl) (hfirst ▸ hr)
        rw [← hpre] at htk
        exact htk
    · simp [pure, Except.pure] at h

lemma reads_grown (more : Stretch) (ps : List Placed) (shape : Shape) {a b : Nat}
    (hr : Scanned s.source.chars st.first.start (st.toList ++ more.toList) more.last.stop →
      Rowed s.source.chars st.first.start ps more.last.stop)
    (hs : Scanned s.source.chars a (st.toList ++ more.toList) b) (hk : shape.kind.isExpr = true)
    (hc : shape.children = ps.map Placed.node) (hp : shape.Proper IsIdentifier)
    (he : ∀ p ∈ ps, p.shape.kind.isExpr = true) :
    Reads s.source.chars
      { span := .ofTokens st.first more.last, shape := shape,
        pieces := s.source.pieces (.ofTokens st.first more.last) 0 ps }
      ⟨st.head, st.tail ++ more.toList⟩ := by
  have hlast := Stretch.last_append st.head st.tail more
  have hs' : Scanned s.source.chars a (⟨st.head, st.tail ++ more.toList⟩ : Stretch).toList b := hs
  have ht := hs'.trim.1
  rw [hlast] at ht
  have hrise := (hr ht).rising_succ fun p hp => isStmt_of_isExpr (he p hp)
  refine reads_woven [] ?_ ?_ (isWoven_of_isExpr hk) hc hp (by simp) (fun hs => ?_) ?_
  · rw [Stretch.span, hlast]
    rfl
  · rw [hlast]
    exact hr ht
  · simp [isStmt_of_isExpr hk] at hs
  · rw [hlast]
    exact hrise

lemma takes_grown {node : Placed} {more : Stretch} {rest : List TokenGroup} {step : Step rest}
    {a b : Nat} (ih : TrailersSpec s rest)
    (hs : Scanned s.source.chars a (st.toList ++ (more.toList ++ rest)) b)
    (hn : Reads s.source.chars node ⟨st.head, st.tail ++ more.toList⟩)
    (hf : st.first.isAutomatic = false) (hk : node.shape.kind.isExpr = true)
    (h : trailers s st.first node rest = .ok step) :
    Takes s.source.chars (st.toList ++ (more.toList ++ rest)) step.node step.rest ∧
      step.node.shape.kind.isExpr = true := by
  rw [← List.append_assoc] at hs ⊢
  have hs' : Scanned s.source.chars a
      ((⟨st.head, st.tail ++ more.toList⟩ : Stretch).toList ++ rest) b := hs
  exact ih hs' hn hf hk h

lemma trailers_spec (ih : Specs s (8 * size gs)) : TrailersSpec s gs := by
  intro node step st a b hs hn hf hk h
  rw [trailers.eq_def] at h
  split at h
  · next p n rest =>
    split at h
    · next name hp hl =>
      obtain ⟨r, hr, h⟩ := Except.bind_eq_ok_iff.1 h
      obtain rfl := Except.pure_eq_ok_iff.1 h
      have hleft := hs
      rw [show .leaf p :: .leaf n :: rest = [.leaf p, .leaf n] ++ rest from rfl,
        ← List.append_assoc] at hleft
      have hread := reads_grown ⟨.leaf p, [.leaf n]⟩ [node, .ident n name]
        (.selector node.node (Placed.ident n name).node) ?_ hleft.left rfl rfl ⟨hk, rfl⟩
        (by simpa using ⟨hk, rfl⟩)
      · exact takes_grown (ih.trailers (by simp; omega)) hs hread hf rfl hr
      · intro hrow
        obtain ⟨m, h₁, h₂⟩ := hrow.split
        have hauto : n.isAutomatic = false := by simp [Token.isAutomatic, hl]
        exact (hn.rowed h₁ hf).append ((reads_ident h₂.tail hl).rowed h₂.tail hauto)
    · obtain rfl := Except.pure_eq_ok_iff.1 h
      exact ⟨⟨st, rfl, hn⟩, hk⟩
  · next o inner c rest =>
    obtain ⟨args, hargs, h⟩ := Except.bind_eq_ok_iff.1 h
    obtain ⟨r, hr, h⟩ := Except.bind_eq_ok_iff.1 h
    obtain rfl := Except.pure_eq_ok_iff.1 h
    have hleft := hs
    rw [← List.singleton_append, ← List.append_assoc] at hleft
    have hopen {st : Stretch} (hx : st ∈ Stretch.split (TokenGroup.isOp .comma) inner) :
        st.first.isAutomatic = false := opened_arguments hs.right.head st hx
    have hrow {a b : Nat} (hs : Scanned s.source.chars a inner b) :=
      hs.rowed_mapM (·.1) (·.shape.kind.isExpr = true) hargs fun arg hx y a b hs hy => by
        have := Stretch.size_le_of_mem_split hx
        exact ih.argument (by simp; omega) hs (hopen hx) hy
    have hread := reads_grown ⟨.pair .round o inner c, []⟩ (node :: args.map (·.1))
      (.call node.node ((args.map (·.1)).map Placed.node) (args.any (·.2))) ?_ hleft.left rfl rfl
      ⟨hk, List.forall_mem_map.2 (hrow hs.right.within).2⟩
      (List.forall_mem_cons.2 ⟨hk, (hrow hs.right.within).2⟩)
    · exact takes_grown (ih.trailers (by simp)) hs hread hf rfl hr
    · intro hs
      obtain ⟨m, h₁, h₂⟩ := hs.split
      exact (hn.rowed h₁ hf).append (hrow h₂.within).1
  · obtain rfl := Except.pure_eq_ok_iff.1 h
    exact ⟨⟨st, rfl, hn⟩, hk⟩

lemma argument_spec (ih : Specs s (8 * st.size + 2)) : ArgumentSpec s st := by
  intro r a b hs hf h
  rw [argument] at h
  split at h
  · obtain ⟨p, hp, h⟩ := Except.bind_eq_ok_iff.1 h
    obtain rfl := Except.pure_eq_ok_iff.1 h
    obtain ⟨hr, hk⟩ := ih.expr (by omega) hs hp
    exact ⟨hr.rowed hs hf, hk⟩
  · next gs hd =>
    split at h
    · simp [fail] at h
    · next inner hi =>
      obtain ⟨p, hp, h⟩ := Except.bind_eq_ok_iff.1 h
      obtain rfl := Except.pure_eq_ok_iff.1 h
      have hin : st.toList = inner.toList ++ [st.tail.getLastD st.head] := by
        rw [← Stretch.ofList?_eq_some_iff.1 hi, eq_dropLast_of_dropEllipsis? hd]
        exact st.toList_eq_concat
      have hsize := size_append inner.toList [st.tail.getLastD st.head]
      rw [← hin, Stretch.size_toList, Stretch.size_toList] at hsize
      have hfirst : inner.first = st.first := congrArg TokenGroup.first (List.cons.inj hin).1.symm
      rw [hin] at hs
      obtain ⟨hr, hk⟩ := ih.expr (by omega) hs.left hp
      exact ⟨hr.rowed hs.left (hfirst ▸ hf), hk⟩

lemma exprs_spec (ih : Specs s (8 * size gs + 2)) : ExprsSpec s gs := by
  intro ps a b hs hopen h
  rw [exprs] at h
  have := hs.rowed_mapM id (·.shape.kind.isExpr = true) h fun st hx y a b hs hy => by
    have := Stretch.size_le_of_mem_split hx
    obtain ⟨hr, hk⟩ := ih.expr (by omega) hs hy
    exact ⟨hr.rowed hs (hopen st hx), hk⟩
  rwa [List.map_id] at this

lemma varType_spec (ih : Specs s (8 * size gs + 2)) : VarTypeSpec s gs := by
  intro o a b hs hsemi h
  rw [varType] at h
  split at h
  · obtain rfl := Except.pure_eq_ok_iff.1 h
    exact ⟨hs.nil, by simp⟩
  · next st hst =>
    obtain ⟨p, hp, h⟩ := Except.bind_eq_ok_iff.1 h
    obtain rfl := Except.pure_eq_ok_iff.1 h
    have hsize := Stretch.size_of_ofList? hst
    obtain rfl := Stretch.ofList?_eq_some_iff.1 hst
    have hs' : Scanned s.source.chars a st.toList b := hs
    obtain ⟨hr, hk⟩ := ih.expr (by omega) hs' hp
    have hauto : st.first.isAutomatic = false :=
      (hs'.matched st.head (List.mem_cons_self ..)).not_automatic (hsemi _ (List.mem_cons_self ..))
    exact ⟨hr.rowed hs' hauto, by simpa using hk⟩

end ParallelTests.Parser
