import ParallelTests.Proofs.Parse.Stmt

namespace ParallelTests.Parser

open Scan TokenGroup

variable {s : TokenStream} {st : Stretch} {gs : List TokenGroup}

lemma rangeVars_spec {bound : List TokenGroup} (ih : Specs s (8 * size bound + 3)) :
    RangeVarsSpec s bound := by
  intro gs r a b hs hopen h
  rw [rangeVars] at h
  split at h
  · obtain rfl := Except.pure_eq_ok_iff.1 h
    exact ⟨hs.nil, by simp, by simp⟩
  · next g hg =>
    split at h
    · obtain ⟨names, hn, h⟩ := Except.bind_eq_ok_iff.1 h
      split at h
      · simp [fail] at h
      · next hlen =>
        obtain rfl := Except.pure_eq_ok_iff.1 h
        have hsize := size_dropLast_le bound
        have hlast := List.dropLast_append_getLast? g hg
        rw [← hlast] at hs
        obtain ⟨hr, hk⟩ := ih.exprs (by omega) hs.left hopen hn
        simp only [Bool.or_eq_true, decide_eq_true_eq, not_or] at hlen
        exact ⟨hr, hk, Nat.le_of_not_lt hlen.2⟩
    · simp [fail] at h

lemma toList_head? {names : List Placed} (h : names.length ≤ 2) :
    (names.head?.map Placed.node).toList ++ (names.tail.head?.map Placed.node).toList =
      names.map Placed.node := by
  match names, h with
  | [], _ => rfl
  | [_], _ => rfl
  | [_, _], _ => rfl

lemma opened_header {t : Token} {before after vars : List TokenGroup} {range : TokenGroup} {a b : Nat}
    (hs : Scanned s.source.chars a (.leaf t :: (before ++ after)) b)
    (ht : t.lexeme = .keyword .kwFor) (hb : before = vars ++ range :: st.toList)
    (hr : range.isKeyword .kwRange = true) :
    Opened vars.dropLast ∧ st.first.isAutomatic = false := by
  have hch := hs.chain
  obtain ⟨last, hlast⟩ := List.dropLast_prefix vars
  constructor
  · rw [hb, ← hlast, List.append_assoc, List.append_assoc, ← List.cons_append, tokens_append,
      tokens_cons, spelled_leaf] at hch
    exact opened_of_chain hch.left (by simp [ht, Lexeme.endsLine])
  · cases range with
    | leaf r =>
      have hl : r.lexeme = .keyword .kwRange := by
        simpa [TokenGroup.isKeyword, Token.isKeyword] using hr
      rw [hb, List.append_assoc] at hs
      exact hs.tail.right.first_not_automatic (by simp [hl, Lexeme.endsLine])
    | pair => simp [TokenGroup.isKeyword] at hr

lemma forStmt_spec (ih : Specs s (8 * size gs + 4)) : ForStmtSpec s gs := by
  intro t closer step a b hs hl h
  have ht : t.isSemicolon = false := by simp [Token.isSemicolon, hl]
  rw [forStmt] at h
  split at h
  · simp [fail] at h
  · next bd _ =>
    obtain ⟨before, o, inner, c, after, rfl⟩ := bd
    have hsize := size_append before (.pair .curly o inner c :: after)
    simp only [size_cons, weight_pair] at hsize
    dsimp only at h
    split at h
    · exact ih.bodyStmt (by omega) hs ht h
    · next range operand hrange =>
      obtain ⟨hkw, hbefore⟩ := of_since hrange
      obtain ⟨⟨tok, names⟩, hn, h⟩ := Except.bind_eq_ok_iff.1 h
      dsimp only at h
      split at h
      · simp [fail] at h
      · next st hst =>
        obtain ⟨x, hx, h⟩ := Except.bind_eq_ok_iff.1 h
        obtain ⟨body, hb, h⟩ := Except.bind_eq_ok_iff.1 h
        obtain rfl := Except.pure_eq_ok_iff.1 h
        obtain rfl : operand = st.toList := Stretch.ofList?_eq_some_iff.1 hst
        have hhead := size_append (upTo (isKeyword .kwRange) before) (range :: st.toList)
        rw [← hbefore] at hhead
        simp only [size_cons, Stretch.size_toList] at hhead
        have hvars : RangeVarsSpec s (upTo (isKeyword .kwRange) before) := ih.rangeVars (by omega)
        have hexpr : ExprSpec s st := ih.expr (by omega)
        have hblock : BlockSpec s inner := ih.block (by omega)
        obtain ⟨hopen, hoperand⟩ := opened_header hs hl hbefore hkw
        -- the variables, the operand and the body, wherever they stand
        have hrows {a b : Nat} (h : Scanned s.source.chars a (before ++ [.pair .curly o inner c]) b) :
            Rowed s.source.chars a (names ++ [x, body]) b ∧
              (∀ p ∈ names ++ [x], p.shape.kind.isExpr = true) ∧ names.length ≤ 2 ∧
              body.shape.kind = .block ∧ body.span = .ofTokens o c := by
          obtain ⟨m, h₁, h₂⟩ := h.split
          rw [hbefore] at h₁
          obtain ⟨m', h₃, h₄⟩ := h₁.split
          obtain ⟨hr, hk, hlen⟩ := hvars h₃ hopen hn
          obtain ⟨hread, hkx⟩ := hexpr h₄.tail hx
          obtain ⟨hreadb, hkb⟩ := hblock h₂ hb
          have hbody := hreadb.rowed h₂ (not_automatic_of_pair h₂)
          exact ⟨hr.append ((hread.rowed h₄.tail hoperand).append hbody),
            List.forall_mem_append.2 ⟨hk, by simpa using hkx⟩, hlen, hkb, hreadb.span_eq⟩
        have hs' := hs.tail
        rw [← List.singleton_append, ← List.append_assoc] at hs'
        obtain ⟨_, hk, hlen, hkb, hspan⟩ := hrows hs'.left
        have hproper : ∀ n ∈ (names.head?.map Placed.node).toList ++
            (names.tail.head?.map Placed.node).toList ++ [x.node], n.kind.isExpr = true := by
          rw [toList_head? hlen]
          refine List.forall_mem_append.2 ⟨List.forall_mem_map.2 fun p hp => ?_,
            List.forall_mem_singleton.2 (hk x (by simp))⟩
          exact hk p (List.mem_append_left _ hp)
        obtain ⟨st', hst', hread, hlast⟩ := takes_led _ ⟨.pair .curly o inner c, []⟩
          (names ++ [x, body]) []
          (.rangeStmt (names.head?.map Placed.node) (names.tail.head?.map Placed.node) tok
            x.node body.node) hs ht rfl (congrArg (Span.ofToken t).through hspan)
          (fun h => ⟨(hrows h).1, (hrows h).1.rising⟩) rfl (by simp [Shape.children, ← toList_head? hlen]) ⟨hproper, hkb⟩ (by simp)
        exact ⟨st', hst', hread, ⟨rfl, rfl⟩, by rw [hlast]; exact last_pair hs'.left.right⟩

lemma of_identifier {g : TokenGroup} {p : Placed} (hm : g.Matched) (h : identifier g.first = .ok p) :
    ∃ t name, g = .leaf t ∧ t.lexeme = .ident name ∧ p = .ident t name := by
  unfold identifier at h
  split at h
  · next name hl =>
    cases hm with
    | leaf => exact ⟨_, name, rfl, hl, (Except.ok.inj h).symm⟩
    | pair ho => simp [TokenGroup.first, ho] at hl
  · simp [fail] at h

lemma reads_identifier {g : TokenGroup} {p : Placed} {a b : Nat}
    (hs : Scanned s.source.chars a [g] b) (h : identifier g.first = .ok p) :
    Rowed s.source.chars a [p] b ∧ p.shape.kind = .ident := by
  obtain ⟨t, name, rfl, hl, rfl⟩ := of_identifier (hs.matched g (by simp)) h
  have hauto : t.isAutomatic = false := by simp [Token.isAutomatic, hl]
  exact ⟨(reads_ident hs hl).rowed hs hauto, rfl⟩

lemma rowed_varNames {follow : Token} {names : List Placed} {rest : List TokenGroup} {a b : Nat}
    (hs : Scanned s.source.chars a gs b) (h : varNames follow gs = .ok (names, rest)) :
    ∃ m, Rowed s.source.chars a names m ∧ Scanned s.source.chars m rest b ∧
      ∀ p ∈ names, p.shape.kind = .ident := by
  induction gs using varNames.induct generalizing names rest a with
  | case1 => simp [varNames, fail] at h
  | case2 g =>
    rw [varNames] at h
    obtain ⟨p, hp, h⟩ := Except.map_eq_ok_iff.1 h
    obtain ⟨rfl, rfl⟩ := Prod.mk.inj h
    obtain ⟨m, h₁, h₂⟩ := hs.split_head
    obtain ⟨hr, hk⟩ := reads_identifier h₁ hp
    exact ⟨m, hr, h₂, by simpa using hk⟩
  | case3 g sep gs ih =>
    rw [varNames] at h
    obtain ⟨p, hp, h⟩ := Except.bind_eq_ok_iff.1 h
    obtain ⟨m, h₁, h₂⟩ := hs.split_head
    obtain ⟨hr, hk⟩ := reads_identifier h₁ hp
    split at h
    · obtain ⟨⟨names', rest'⟩, hn, h⟩ := Except.bind_eq_ok_iff.1 h
      obtain ⟨rfl, rfl⟩ := Prod.mk.inj (Except.pure_eq_ok_iff.1 h)
      obtain ⟨m', hr', hs', hk'⟩ := ih h₂.tail hn
      exact ⟨m', hr.append hr', hs', List.forall_mem_cons.2 ⟨hk, hk'⟩⟩
    · obtain ⟨rfl, rfl⟩ := Prod.mk.inj (Except.pure_eq_ok_iff.1 h)
      exact ⟨m, hr, h₂, by simpa using hk⟩

lemma varStmt_spec (ih : Specs s (8 * size gs + 4)) : VarStmtSpec s gs := by
  intro t closer step a b hs ht h
  rw [varStmt] at h
  split at h
  · simp at h
  · next names rest hv =>
    obtain ⟨type, htype, h⟩ := Except.bind_eq_ok_iff.1 h
    obtain ⟨values, hvalues, h⟩ := Except.bind_eq_ok_iff.1 h
    obtain rfl := Except.pure_eq_ok_iff.1 h
    have hsize := size_le_of_suffix (suffix_of_varNames hv)
    have hsize₁ := size_upTo_le isSemicolon gs
    have hsize₂ := size_upTo_le (isOp .assign) rest
    have hsize₃ := size_le_of_suffix ((List.tail_suffix _).trans (since_suffix (isOp .assign) rest))
    have htypes : VarTypeSpec s (upTo (isOp .assign) rest) := ih.varType (by omega)
    have hexprs : ExprsSpec s (since (isOp .assign) rest).tail := ih.exprs (by omega)
    have hsemi : ∀ g ∈ rest, g.isSemicolon = false := fun g hg =>
      not_of_mem_upTo ((suffix_of_varNames hv).subset hg)
    -- the names, the type and the values, wherever they stand
    have hrows {a b : Nat} (h : Scanned s.source.chars a (upTo isSemicolon gs) b) :
        Rowed s.source.chars a (names ++ type.toList ++ values) b ∧
          ∀ p ∈ names ++ type.toList ++ values, p.shape.kind.isExpr = true := by
      obtain ⟨m, hr, hs, hk⟩ := rowed_varNames h hv
      rw [← upTo_append_since (isOp .assign) rest] at hs
      obtain ⟨m', h₁, h₂⟩ := hs.split
      obtain ⟨hrt, hkt⟩ := htypes h₁ (fun g hg => hsemi g ((List.takeWhile_prefix _).subset hg)) htype
      have hvalues' : ∀ g ∈ (since (isOp .assign) rest).tail, g.isSemicolon = false := fun g hg =>
        hsemi g (((List.tail_suffix _).trans (since_suffix _ _)).subset hg)
      obtain ⟨hrv, hkv⟩ := hexprs h₂.drop_head (opened_of_semis h₂.drop_head hvalues') hvalues
      refine ⟨(hr.append hrt).append hrv,
        List.forall_mem_append.2 ⟨List.forall_mem_append.2 ⟨fun p hp => ?_, ?_⟩, hkv⟩⟩
      · rw [hk p hp]
        rfl
      · simpa using hkt
    have hst : .leaf t :: gs = (⟨.leaf t, upTo isSemicolon gs⟩ : Stretch).toList ++
        since isSemicolon gs := by
      rw [Stretch.toList, List.cons_append, upTo_append_since]
    have hs' := hs
    rw [hst] at hs'
    have hs₀ : Scanned s.source.chars a (⟨.leaf t, gs⟩ : Stretch).toList b := hs
    have hl : (⟨.leaf t, upTo isSemicolon gs⟩ : Stretch).last.isSemicolon = false :=
      last_statement hs₀ ht
    have hnodes : names.map Placed.node ++ (type.map Placed.node).toList ++ values.map Placed.node =
        (names ++ type.toList ++ values).map Placed.node := by
      cases type <;> simp
    have hrow := hrows hs'.left.trim.1.tail
    refine ⟨_, hst, reads_woven [] rfl hrow.1 rfl hnodes ?_ (by simp)
      (fun _ => start_lt_stop hs'.left ht) (hrow.1.rising_succ fun p hp => isStmt_of_isExpr (hrow.2 p hp)),
      ⟨rfl, rfl⟩, hl⟩
    rw [Shape.Proper, hnodes]
    exact List.forall_mem_map.2 hrow.2

lemma simple_spec (ih : Specs s (8 * st.size + 3)) : SimpleSpec s st := by
  intro step a b hs hh h
  rw [simple] at h
  have hsize := st.size_statement_le
  have hs' := hs
  rw [statement_append] at hs'
  split at h
  · obtain ⟨x, hx, h⟩ := Except.bind_eq_ok_iff.1 h
    obtain rfl := Except.pure_eq_ok_iff.1 h
    obtain ⟨hread, hk⟩ := ih.expr (by omega) hs'.left hx
    have hauto : st.first.isAutomatic = false :=
      (hs.matched st.head (List.mem_cons_self ..)).not_automatic hh
    have hrow := hread.rowed hs'.left.trim.1 hauto
    exact ⟨st.statement, statement_append st, reads_woven [] rfl hrow rfl rfl hk (by simp)
      (fun _ => start_lt_stop hs'.left hh) (hrow.rising_succ (by simpa using isStmt_of_isExpr hk)),
      ⟨rfl, rfl⟩, last_statement hs hh⟩
  · next turn right hturn =>
    split at h
    · exact ih.rawStmt (by omega) hs hh h
    · exact ih.rawStmt (by omega) hs hh h
    · exact ih.rawStmt (by omega) hs hh h
    · obtain ⟨lhs, hl, h⟩ := Except.bind_eq_ok_iff.1 h
      obtain ⟨rhs, hr, h⟩ := Except.bind_eq_ok_iff.1 h
      split at h
      · simp [fail] at h
      · obtain rfl := Except.pure_eq_ok_iff.1 h
        obtain ⟨_, hsplit⟩ := of_since hturn
        have hsemi : ∀ g ∈ upTo isTurn st.statement.toList ++ turn :: right, g.isSemicolon = false :=
          fun g hg => isSemicolon_of_mem_statement hh (hsplit ▸ hg)
        have hsum := size_append (upTo isTurn st.statement.toList) (turn :: right)
        rw [← hsplit, Stretch.size_toList, size_cons] at hsum
        have hrows {a b : Nat} (h : Scanned s.source.chars a st.statement.toList b) :
            Rowed s.source.chars a (lhs ++ rhs) b ∧
              ∀ p ∈ lhs ++ rhs, p.shape.kind.isExpr = true := by
          rw [hsplit] at h
          obtain ⟨m, h₁, h₂⟩ := h.split
          have hleft := opened_of_semis h₁ fun g hg => hsemi g (by simp [hg])
          have hright := opened_of_semis h₂.tail fun g hg => hsemi g (by simp [hg])
          obtain ⟨hrl, hkl⟩ := ih.exprs (by omega) h₁ hleft hl
          obtain ⟨hrr, hkr⟩ := ih.exprs (by omega) h₂.tail hright hr
          exact ⟨hrl.append hrr, List.forall_mem_append.2 ⟨hkl, hkr⟩⟩
        have hrow := hrows hs'.left.trim.1
        refine ⟨st.statement, statement_append st, reads_woven [] rfl hrow.1
          rfl (by simp [Shape.children]) ?_ (by simp) (fun _ => start_lt_stop hs'.left hh)
          (hrow.1.rising_succ fun p hp => isStmt_of_isExpr (hrow.2 p hp)),
          ⟨rfl, rfl⟩, last_statement hs hh⟩
        rw [Shape.Proper, ← List.map_append]
        exact List.forall_mem_map.2 hrow.2

end ParallelTests.Parser
