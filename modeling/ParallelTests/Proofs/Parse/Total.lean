import ParallelTests.Proofs.Parse.Within

namespace ParallelTests

open TokenGroup

variable {n : Nat}

def Comment.Within (n : Nat) (c : Comment) : Prop := c.start ≤ n ∧ c.stop ≤ n

namespace Attach

lemma mem_entries {ps : List Placed} {cs : List Comment} {e : Entry} (h : e ∈ entries ps cs) :
    (∃ p ∈ ps, e = .stmt p) ∨ ∃ c ∈ cs, e = .comment c := by
  induction ps, cs using entries.induct with
  | case1 cs =>
    rw [entries, List.mem_map] at h
    obtain ⟨c, hc, rfl⟩ := h
    exact .inr ⟨c, hc, rfl⟩
  | case2 p ps =>
    rw [entries, List.mem_map] at h
    obtain ⟨q, hq, rfl⟩ := h
    exact .inl ⟨q, hq, rfl⟩
  | case3 p ps c cs hle ih =>
    rw [entries, if_pos hle] at h
    obtain rfl | h := List.mem_cons.1 h
    · exact .inl ⟨p, by simp, rfl⟩
    · obtain ⟨q, hq, rfl⟩ | ⟨d, hd, rfl⟩ := ih h
      · exact .inl ⟨q, by simp [hq], rfl⟩
      · exact .inr ⟨d, hd, rfl⟩
  | case4 p ps c cs hle ih =>
    rw [entries, if_neg hle] at h
    obtain rfl | h := List.mem_cons.1 h
    · exact .inr ⟨c, by simp, rfl⟩
    · obtain ⟨q, hq, rfl⟩ | ⟨d, hd, rfl⟩ := ih h
      · exact .inl ⟨q, hq, rfl⟩
      · exact .inr ⟨d, by simp [hd], rfl⟩

lemma spanned_push {s : Shelf} {p : Placed} (hs : ∀ q ∈ s.stmts, Spanned n q.node)
    (hp : Spanned n p.node) : ∀ q ∈ (s.push p).stmts, Spanned n q.node :=
  List.forall_mem_cons.2 ⟨hp.congr rfl rfl, hs⟩

lemma spanned_append {s : Shelf} (c : Comment) (hs : ∀ q ∈ s.stmts, Spanned n q.node) :
    ∀ q ∈ (s.append c).stmts, Spanned n q.node := by
  unfold Shelf.append
  split
  · next last earlier he =>
    rw [he, List.forall_mem_cons] at hs
    exact List.forall_mem_cons.2 ⟨hs.1.congr rfl rfl, hs.2⟩
  · simp

lemma spanned_statement {c : Comment} (h : c.Within n) : Spanned n (Shelf.statement c).node :=
  spanned_of h.1 h.2 (by simp [Shelf.statement, Shape.children])

lemma spanned_foldl {es : List Entry} {s : Shelf} (hs : ∀ q ∈ s.stmts, Spanned n q.node)
    (hp : ∀ p, .stmt p ∈ es → Spanned n p.node) (hc : ∀ c, .comment c ∈ es → c.Within n) :
    ∀ q ∈ (es.foldl Shelf.add s).stmts, Spanned n q.node := by
  induction es generalizing s with
  | nil => exact hs
  | cons e es ih =>
    apply ih
    · cases e with
      | stmt p => exact spanned_push hs (hp p (by simp))
      | comment c =>
        rw [Shelf.add]
        split
        · exact spanned_append c hs
        · exact spanned_push hs (spanned_statement (hc c (by simp)))
    · exact fun p hmem => hp p (by simp [hmem])
    · exact fun c hmem => hc c (by simp [hmem])

lemma spanned_attach {comments : List Comment} (o c : Token) {occupants : List Occupant}
    (hcs : ∀ c ∈ comments, c.Within n) (ho : ∀ o ∈ occupants, Spanned n o.stmt.node) :
    ∀ q ∈ (attach comments o c occupants).1, Spanned n q.node := by
  intro q hq
  refine spanned_foldl (s := ⟨[], none, o.line⟩) (by simp) ?_ ?_ q (List.mem_reverse.1 hq)
  · intro p hp
    obtain ⟨p', hp', he⟩ | ⟨c, _, he⟩ := mem_entries hp
    · obtain rfl := Entry.stmt.inj he
      obtain ⟨o, hmem, rfl⟩ := List.mem_map.1 hp'
      exact ho o hmem
    · cases he
  · intro d hd
    obtain ⟨p, _, he⟩ | ⟨d', hd', he⟩ := mem_entries hd
    · cases he
    · obtain rfl := Entry.comment.inj he
      exact hcs d (List.mem_filter.1 hd').1

end Attach

namespace Parser

variable {s : TokenStream}

def sureLaw (s : TokenStream) (n : Nat) : Law where
  expr st := ∀ after, Within n st.toList → Sure n (Spanned n ·.node) (expr s after st)
  primary st := Within n st.toList →
    Sure n (fun o => ∀ step ∈ o, Spanned n step.node.node) (primary s st)
  trailers gs := ∀ start node, start.Within n → Spanned n node.node → Within n gs →
    Sure n (Spanned n ·.node.node) (trailers s start node gs)
  argument st := Within n st.toList → Sure n (Spanned n ·.1.node) (argument s st)
  funcLit gs := ∀ t, t.Within n → Within n gs →
    Sure n (fun o => ∀ step ∈ o, Spanned n step.node.node) (funcLit s t gs)
  funcType inner := ∀ o c, o.Within n → c.Within n → Within n inner →
    Sure n (Spanned n ·.node) (funcType s o inner c)
  rawNodes gs := ∀ after, Within n gs →
    Sure n (fun ps => ∀ p ∈ ps, Spanned n p.node) (rawNodes s after gs)
  block inner := ∀ o c, o.Within n → c.Within n → Within n inner →
    Sure n (Spanned n ·.node) (block s o inner c)
  items gs := ∀ closer, closer.Within n → Within n gs →
    Sure n (fun os => ∀ o ∈ os, Spanned n o.stmt.node) (items s closer gs)
  clause gs := ∀ t closer, t.Within n → closer.Within n → Within n gs →
    Sure n (Spanned n ·.node.node) (clause s t closer gs)
  clauseBody gs := ∀ closer, closer.Within n → Within n gs →
    Sure n (fun r => ∀ p ∈ r.nodes, Spanned n p.node) (clauseBody s closer gs)
  stmt st := ∀ closer, closer.Within n → Within n st.toList →
    Sure n (Spanned n ·.node.node) (stmt s closer st)
  labeled gs := ∀ closer t name colon, closer.Within n → t.Within n → colon.Within n →
    Within n gs → Sure n (Spanned n ·.node.node) (labeled s closer t name colon gs)
  rawStmt st := Within n st.toList → Sure n (Spanned n ·.node.node) (rawStmt s st)
  bodyStmt gs := ∀ t closer, t.Within n → closer.Within n → Within n gs →
    Sure n (Spanned n ·.node.node) (bodyStmt s t closer gs)
  ifStmt gs := ∀ t closer, t.Within n → closer.Within n → Within n gs →
    Sure n (Spanned n ·.node.node) (ifStmt s t closer gs)
  forStmt gs := ∀ t closer, t.Within n → closer.Within n → Within n gs →
    Sure n (Spanned n ·.node.node) (forStmt s t closer gs)
  rangeVars bound := ∀ gs, Within n gs → Within n bound →
    Sure n (fun r => ∀ p ∈ r.2, Spanned n p.node) (rangeVars s gs bound)
  varStmt gs := ∀ t closer, t.Within n → closer.Within n → Within n gs →
    Sure n (Spanned n ·.node.node) (varStmt s t closer gs)
  varType gs := Within n gs → Sure n (fun o => ∀ p ∈ o, Spanned n p.node) (varType s gs)
  exprs gs := Within n gs → Sure n (fun ps => ∀ p ∈ ps, Spanned n p.node) (exprs s gs)
  simple st := Within n st.toList → Sure n (Spanned n ·.node.node) (simple s st)

lemma spanned_raw {src : Source} {span : Span} {shape : List Node → Shape} {nodes : List Placed}
    (hstart : span.start ≤ n) (hstop : span.stop ≤ n) (hc : ∀ ns, (shape ns).children = ns)
    (hn : ∀ p ∈ nodes, Spanned n p.node) : Spanned n (raw src span shape nodes).node := by
  apply spanned_of hstart hstop
  rw [raw, hc]
  exact List.forall_mem_map.2 hn

section

variable {st : Stretch} {gs : List TokenGroup}

lemma expr_sure (ih : (sureLaw s n).Below (8 * st.size + 1)) : (sureLaw s n).expr st := by
  intro after h
  rw [expr]
  apply (ih.primary st (by omega) h).bind
  intro o ho
  split
  · exact ho _ rfl
  · apply (ih.rawNodes st.toList (by simp) after h).bind
    intro nodes hn
    exact spanned_raw h.first.1 h.last.2 (fun _ => rfl) hn

lemma primary_sure (ih : (sureLaw s n).Below (8 * st.size)) : (sureLaw s n).primary st := by
  intro h
  have htail := st.size_tail_lt
  obtain ⟨g, gs⟩ := st
  rw [primary]
  split
  · exact fun step hstep => by cases hstep
  · next t hd =>
    obtain rfl : g = .leaf t := hd
    have htrailers : ∀ node : Placed, Spanned n node.node →
        Sure n (fun o => ∀ step ∈ o, Spanned n step.node.node)
          (return some (← trailers s t node gs)) := by
      intro node hnode
      apply (ih.trailers gs (by simp) t node h.leaf hnode h.tail).bind
      rintro step hstep _ ⟨⟩
      exact hstep
    split
    · split
      · exact fun step hstep => by cases hstep
      · next inner hi =>
        have hin : gs = inner.toList := Stretch.ofList?_eq_some_iff.1 hi
        apply (ih.primary inner (by simp [Stretch.size_of_ofList? hi]) (hin ▸ h.tail)).bind
        intro o ho
        split
        · exact fun step hstep => by cases hstep
        · next step =>
          rintro _ ⟨⟩
          exact spanned_of h.leaf.1 (ho step rfl).span_le.2 (by simpa [Shape.children] using ho step rfl)
    · exact htrailers _ (.leaf h.leaf rfl)
    · exact htrailers _ (.leaf h.leaf rfl)
    · exact htrailers _ (.leaf h.leaf rfl)
    · exact htrailers _ (.leaf h.leaf rfl)
    · apply (ih.funcLit gs (by simp) t h.leaf h.tail).bind
      intro o ho
      split
      · exact fun step hstep => by cases hstep
      · next step =>
        have hsize : size step.rest ≤ size gs := size_le_of_suffix step.rest_suffix
        apply (ih.trailers step.rest (by simp; omega) t step.node h.leaf (ho step rfl)
          (h.tail.suffix step.rest_suffix)).bind
        rintro more hmore _ ⟨⟩
        exact hmore
    · exact fun step hstep => by cases hstep

lemma trailers_sure (ih : (sureLaw s n).Below (8 * size gs)) : (sureLaw s n).trailers gs := by
  intro start node hstart hnode h
  rw [trailers.eq_def]
  split
  · next p i rest =>
    split
    · next name hp hi =>
      have hsel : Spanned n (Placed.ident i name).node := .leaf h.tail.leaf rfl
      refine (ih.trailers rest (by simp; omega) start _ hstart ?_ h.tail.tail).bind fun step hstep => hstep
      apply spanned_of hstart.1 h.tail.leaf.2
      exact List.forall_mem_cons.2 ⟨hnode, List.forall_mem_singleton.2 hsel⟩
    · exact hnode
  · next o inner c rest =>
    refine Sure.bind (P := fun rs : List (Placed × Bool) => ∀ r ∈ rs, Spanned n r.1.node) ?_
      fun args hargs => ?_
    · apply Sure.attach_mapM
      intro a ha
      have := Stretch.size_le_of_mem_split ha
      exact ih.argument a (by simp; omega) (h.inner.of_mem_split ha)
    refine (ih.trailers rest (by simp) start _ hstart ?_ h.tail).bind fun step hstep => hstep
    apply spanned_of hstart.1 h.closer.2
    exact List.forall_mem_cons.2 ⟨hnode, List.forall_mem_map.2 (List.forall_mem_map.2 hargs)⟩
  · exact hnode

lemma argument_sure (ih : (sureLaw s n).Below (8 * st.size + 2)) : (sureLaw s n).argument st := by
  intro h
  rw [argument]
  split
  · exact (ih.expr st (by omega) false h).bind fun p hp => hp
  · next gs hd =>
    have hgs := eq_dropLast_of_dropEllipsis? hd
    split
    · exact .fail h.first
    · next inner hi =>
      have hin : gs = inner.toList := Stretch.ofList?_eq_some_iff.1 hi
      have hsize : inner.size ≤ st.size := by
        have := size_dropLast_le st.toList
        rwa [← hgs, ← Stretch.size_of_ofList? hi] at this
      refine (ih.expr inner (by omega) false ?_).bind fun p hp => hp
      rw [← hin, hgs]
      exact h.dropLast

lemma exprs_sure (ih : (sureLaw s n).Below (8 * size gs + 2)) : (sureLaw s n).exprs gs := by
  intro h
  rw [exprs]
  apply Sure.attach_mapM
  intro st hst
  have := Stretch.size_le_of_mem_split hst
  exact ih.expr st (by omega) false (h.of_mem_split hst)

lemma varType_sure (ih : (sureLaw s n).Below (8 * size gs + 2)) : (sureLaw s n).varType gs := by
  intro h
  rw [varType]
  split
  · exact fun p hp => by cases hp
  · next st hst =>
    have hsize := Stretch.size_of_ofList? hst
    rw [Stretch.ofList?_eq_some_iff.1 hst] at h
    apply (ih.expr st (by omega) false h).bind
    rintro p hp _ ⟨⟩
    exact hp

lemma funcLit_sure (ih : (sureLaw s n).Below (8 * size gs)) : (sureLaw s n).funcLit gs := by
  intro t ht h
  rw [funcLit.eq_def]
  split
  · next o params c rest =>
    split
    · next bo inner bc after hsig =>
      have hs := suffix_of_signatureEnd hsig
      have hsize := size_le_of_suffix hs
      have hbody := h.tail.suffix hs
      simp only [size_cons, weight_pair] at hsize
      apply (ih.funcType params (by simp; omega) o c h.opener h.closer h.inner).bind
      intro type htype
      apply (ih.block inner (by simp; omega) bo bc hbody.opener hbody.closer hbody.inner).bind
      rintro body hb _ ⟨⟩
      apply spanned_of ht.1 hbody.closer.2
      exact List.forall_mem_cons.2 ⟨htype, List.forall_mem_singleton.2 hb⟩
    · exact fun step hstep => by cases hstep
  · exact fun step hstep => by cases hstep

lemma spanned_fields {params : List Param} {pending : List Placed}
    (hp : ∀ p ∈ pending, Spanned n p.node)
    (h : ∀ param ∈ params, match param with
      | .name ident => Spanned n ident.node
      | .typed span ident type =>
        (span.start ≤ n ∧ span.stop ≤ n) ∧ Spanned n ident.node ∧ Spanned n type.node) :
    ∀ p ∈ (fields pending params).1, Spanned n p.node := by
  induction params generalizing pending with
  | nil => simp [fields]
  | cons param params ih =>
    obtain ⟨hparam, hrest⟩ := List.forall_mem_cons.1 h
    cases param with
    | name ident =>
      rw [fields]
      exact ih (List.forall_mem_append.2 ⟨hp, List.forall_mem_singleton.2 hparam⟩) hrest
    | typed span ident type =>
      rw [fields]
      refine List.forall_mem_cons.2 ⟨?_, ih (by simp) hrest⟩
      apply spanned_of hparam.1.1 hparam.1.2
      simp only [Shape.children, List.forall_mem_append, List.forall_mem_map, List.forall_mem_singleton]
      exact ⟨⟨hp, hparam.2.1⟩, hparam.2.2⟩

lemma within_of_paramName? {t : Token} {name : String} {type : Stretch} (h : Within n st.toList)
    (hp : paramName? st = some (t, name, type)) : t.Within n ∧ Within n type.toList := by
  obtain ⟨head, tail⟩ := st
  unfold paramName? at hp
  split at hp
  · next t' g gs h₁ h₂ =>
    simp only at h₁ h₂
    subst h₁ h₂
    split at hp
    · split at hp
      · cases hp
      · simp only [Option.some.injEq, Prod.mk.injEq] at hp
        obtain ⟨rfl, _, rfl⟩ := hp
        exact ⟨h.leaf, h.tail⟩
    · cases hp
  · cases hp

lemma spanned_of_singleIdent? {p : Placed} (h : Within n st.toList) (hp : singleIdent? st = some p) :
    Spanned n p.node := by
  obtain ⟨head, tail⟩ := st
  unfold singleIdent? at hp
  split at hp
  · next t h₁ h₂ =>
    simp only at h₁ h₂
    subst h₁ h₂
    split at hp
    · obtain rfl := Option.some.inj hp
      exact .leaf h.leaf rfl
    · cases hp
  · cases hp

lemma funcType_sure {inner : List TokenGroup} (ih : (sureLaw s n).Below (8 * size inner + 2)) :
    (sureLaw s n).funcType inner := by
  intro o c ho hc h
  rw [funcType]
  dsimp only
  split
  · refine Sure.bind (Sure.attach_mapM (Q := fun param => match param with
      | .name ident => Spanned n ident.node
      | .typed span ident type =>
        (span.start ≤ n ∧ span.stop ≤ n) ∧ Spanned n ident.node ∧ Spanned n type.node) ?_) ?_
    · intro st hst
      have hsize := Stretch.size_le_of_mem_split hst
      have hin := h.of_mem_split hst
      dsimp only
      split
      · next t name type hp =>
        obtain ⟨ht, htype⟩ := within_of_paramName? hin hp
        have := size_lt_of_paramName? hp
        apply (ih.expr type (by omega) false htype).bind
        intro p hp
        exact ⟨⟨hin.first.1, hin.last.2⟩, .leaf ht rfl, hp⟩
      · split
        · next ident hi => exact spanned_of_singleIdent? hin hi
        · exact .fail hin.first
    · intro params hparams
      have hf : ∀ p ∈ (fields [] params).1, Spanned n p.node := spanned_fields (by simp) hparams
      split
      · next done hd =>
        rw [hd] at hf
        exact spanned_of ho.1 hc.2 (List.forall_mem_map.2 hf)
      · exact .fail hc
  · refine Sure.bind (Sure.attach_mapM (Q := fun p => Spanned n p.node) ?_) ?_
    · intro st hst
      have hsize := Stretch.size_le_of_mem_split hst
      have hin := h.of_mem_split hst
      apply (ih.expr st (by omega) false hin).bind
      intro p hp
      exact spanned_of hin.first.1 hin.last.2 (List.forall_mem_singleton.2 hp)
    · intro params hparams
      exact spanned_of ho.1 hc.2 (List.forall_mem_map.2 hparams)

lemma rawNodes_sure (ih : (sureLaw s n).Below (8 * size gs)) : (sureLaw s n).rawNodes gs := by
  intro after h
  rw [rawNodes.eq_def]
  split
  · exact fun p hp => by cases hp
  · next t rest =>
    split
    · apply (ih.funcLit rest (by simp) t h.leaf h.tail).bind
      intro o ho
      split
      · next step =>
        have hsize := size_le_of_suffix step.rest_suffix
        apply (ih.rawNodes step.rest (by simp; omega) false (h.tail.suffix step.rest_suffix)).bind
        intro ps hps
        exact List.forall_mem_cons.2 ⟨ho step rfl, hps⟩
      · exact ih.rawNodes rest (by simp) false h.tail
    · exact ih.rawNodes rest (by simp) _ h.tail
  · next b o inner c rest =>
    apply (ih.rawNodes inner (by simp; omega) false h.inner).bind
    intro here hhere
    apply (ih.rawNodes rest (by simp) _ h.tail).bind
    intro ps hps
    exact List.forall_mem_append.2 ⟨hhere, hps⟩

lemma block_sure {inner : List TokenGroup} (hcs : ∀ c ∈ s.comments, c.Within n)
    (ih : (sureLaw s n).Below (8 * size inner + 6)) : (sureLaw s n).block inner := by
  intro o c ho hc h
  rw [block]
  apply (ih.items inner (by omega) c hc h).bind
  intro occupants hocc
  exact spanned_of ho.1 hc.2 (List.forall_mem_map.2 (Attach.spanned_attach o c hcs hocc))

lemma expectEnd_sure (h : Within n gs) : Sure n (fun _ => True) (expectEnd gs) := by
  cases gs with
  | nil => trivial
  | cons g gs =>
    rw [expectEnd]
    split
    · trivial
    · exact .fail h.head.group_first

lemma spanned_indented {p : Placed} (h : Spanned n p.node) :
    Spanned n (indented s.source p).node := h.congr rfl rfl

lemma items_sure (ih : (sureLaw s n).Below (8 * size gs + 5)) : (sureLaw s n).items gs := by
  intro closer hc h
  rw [items.eq_def]
  split
  · exact fun o ho => by cases ho
  · next g rest =>
    have hg := weight_pos g
    split
    · exact ih.items rest (by simp; omega) closer hc h.tail
    · split
      · apply (ih.clause rest (by simp; omega) g.first closer h.head.group_first hc h.tail).bind
        intro step hstep
        have hsize := size_le_of_suffix step.rest_suffix
        apply (ih.items step.rest (by simp; omega) closer hc (h.tail.suffix step.rest_suffix)).bind
        intro os hos
        exact List.forall_mem_cons.2 ⟨hstep, hos⟩
      · apply (ih.stmt ⟨g, rest⟩ (by simp) closer hc h).bind
        intro step hstep
        have hsize : size step.rest ≤ size rest := size_le_of_suffix step.rest_suffix
        have hrest : Within n step.rest := h.tail.suffix step.rest_suffix
        apply (expectEnd_sure hrest).bind
        intro _ _
        apply (ih.items step.rest (by simp; omega) closer hc hrest).bind
        intro os hos
        exact List.forall_mem_cons.2 ⟨spanned_indented hstep, hos⟩

lemma clauseBody_sure (ih : (sureLaw s n).Below (8 * size gs + 5)) : (sureLaw s n).clauseBody gs := by
  intro closer hc h
  rw [clauseBody.eq_def]
  split
  · exact fun p hp => by cases hp
  · next g rest =>
    have hg := weight_pos g
    split
    · exact fun p hp => by cases hp
    · split
      · exact (ih.clauseBody rest (by simp; omega) closer hc h.tail).bind fun r hr => hr
      · apply (ih.stmt ⟨g, rest⟩ (by simp) closer hc h).bind
        intro step hstep
        have hsize : size step.rest ≤ size rest := size_le_of_suffix step.rest_suffix
        have hrest : Within n step.rest := h.tail.suffix step.rest_suffix
        apply (expectEnd_sure hrest).bind
        intro _ _
        apply (ih.clauseBody step.rest (by simp; omega) closer hc hrest).bind
        intro more hmore
        exact List.forall_mem_cons.2 ⟨spanned_indented hstep, hmore⟩

lemma spanned_clause {header : Placed} {body stmts : List Placed} (hh : Spanned n header.node)
    (hb : ∀ p ∈ body, Spanned n p.node) (hs : ∀ p ∈ stmts, Spanned n p.node) :
    Spanned n (Placed.node
      { span := header.span.through (body.getLastD header).span
        shape := .caseClause header.node (stmts.map Placed.node) }) := by
  have hlast : Spanned n (body.getLastD header).node := by
    rw [List.getLastD_eq_getLast?]
    cases hl : body.getLast? with
    | none => exact hh
    | some p => exact hb p (List.mem_of_getLast? hl)
  exact spanned_of hh.span_le.1 hlast.span_le.2
    (List.forall_mem_cons.2 ⟨hh, List.forall_mem_map.2 hs⟩)

lemma clause_sure (hcs : ∀ c ∈ s.comments, c.Within n) (ih : (sureLaw s n).Below (8 * size gs + 5)) :
    (sureLaw s n).clause gs := by
  intro t closer ht hc h
  rw [clause]
  split
  · exact .fail ht
  · next colon after hsince =>
    have hs : colon :: after <:+ gs := hsince ▸ since_suffix _ _
    have hsize := size_le_of_suffix hs
    have hcolon := weight_pos colon
    have hupTo := size_upTo_le (isOp .colon) gs
    have hin := h.suffix hs
    rw [size_cons] at hsize
    apply (ih.rawNodes _ (by omega) false (h.upTo (isOp .colon))).bind
    intro nodes hnodes
    apply (ih.clauseBody after (by omega) closer hc hin.tail).bind
    intro body hbody
    have hocc : ∀ o ∈ body.nodes.map fun p => (⟨p, p.span.stop⟩ : Occupant), Spanned n o.stmt.node :=
      List.forall_mem_map.2 hbody
    have hstmts := Attach.spanned_attach colon.first (next closer body.rest) hcs hocc
    have hheader : Spanned n (raw s.source (.ofTokens t colon.first) .rawExpr nodes).node :=
      spanned_raw ht.1 hin.head.group_first.2 (fun _ => rfl) hnodes
    dsimp only
    generalize Attach.attach s.comments colon.first (next closer body.rest) _ = placed at hstmts ⊢
    obtain ⟨stmts, lead⟩ := placed
    cases lead with
    | none => exact spanned_clause hheader hbody hstmts
    | some text => exact spanned_clause (hheader.congr rfl rfl) hbody hstmts

lemma stmt_sure (ih : (sureLaw s n).Below (8 * st.size + 4)) : (sureLaw s n).stmt st := by
  intro closer hc h
  have htail := st.size_tail_lt
  obtain ⟨g, gs⟩ := st
  rw [stmt]
  dsimp only
  split
  · next o inner c =>
    apply (ih.block inner (by simp; omega) o c h.opener h.closer h.inner).bind
    exact fun p hp => hp
  · exact ih.simple _ (by simp) h
  · next t =>
    split
    · split
      · next colon rest =>
        split
        · apply (ih.labeled rest (by simp; omega) closer t _ colon hc h.leaf h.tail.leaf h.tail.tail).bind
          exact fun step hstep => hstep
        · exact (ih.simple _ (by simp) h).bind fun step hstep => hstep
      · exact (ih.simple _ (by simp) h).bind fun step hstep => hstep
    · exact ih.ifStmt gs (by simp; omega) t closer h.leaf hc h.tail
    · exact ih.forStmt gs (by simp) t closer h.leaf hc h.tail
    · exact ih.bodyStmt gs (by simp; omega) t closer h.leaf hc h.tail
    · exact ih.bodyStmt gs (by simp; omega) t closer h.leaf hc h.tail
    · split
      · exact ih.rawStmt _ (by simp) h
      · exact ih.varStmt gs (by simp) t closer h.leaf hc h.tail
    · exact ih.simple _ (by simp) h
    · exact ih.rawStmt _ (by simp) h
    · exact ih.simple _ (by simp) h

lemma labeled_sure (ih : (sureLaw s n).Below (8 * size gs + 5)) : (sureLaw s n).labeled gs := by
  intro closer t name colon hc ht hcolon h
  rw [labeled.eq_def]
  have hname : Spanned n (Placed.ident t name).node := .leaf ht rfl
  have halone : Spanned n (Placed.node
      { span := Span.ofTokens t colon, shape := .labeled (Placed.ident t name).node none }) :=
    spanned_of ht.1 hcolon.2 (List.forall_mem_singleton.2 hname)
  split
  · exact halone
  · next g rest =>
    split
    · exact halone
    · apply (ih.stmt ⟨g, rest⟩ (by simp) closer hc h).bind
      intro step hstep
      have hin := spanned_indented (s := s) hstep
      exact spanned_of ht.1 hin.span_le.2
        (List.forall_mem_cons.2 ⟨hname, List.forall_mem_singleton.2 hin⟩)

lemma rawStmt_sure (ih : (sureLaw s n).Below (8 * st.size + 1)) : (sureLaw s n).rawStmt st := by
  intro h
  have hsize := st.size_statement_le
  rw [rawStmt]
  apply (ih.rawNodes st.statement.toList (by simp; omega) false h.statement).bind
  intro nodes hn
  exact spanned_raw h.statement.first.1 h.statement.last.2 (fun _ => rfl) hn

end

section

variable {gs : List TokenGroup}

lemma spanned_option {o : Option Placed} (h : ∀ p ∈ o, Spanned n p.node) :
    ∀ m ∈ (o.map Placed.node).toList, Spanned n m := by
  cases o with
  | none => simp
  | some p => exact List.forall_mem_singleton.2 (h p rfl)

lemma within_body (b : Body gs) (h : Within n gs) :
    Within n b.before ∧ (b.opener.Within n ∧ Within n b.inner ∧ b.closer.Within n) ∧ Within n b.after := by
  rw [b.eq] at h
  exact ⟨h.left, ⟨h.right.opener, h.right.inner, h.right.closer⟩, h.right.tail⟩

lemma bodyStmt_sure (ih : (sureLaw s n).Below (8 * size gs)) : (sureLaw s n).bodyStmt gs := by
  intro t closer ht hc h
  rw [bodyStmt]
  split
  · exact .fail (h.next hc)
  · next b _ =>
    have hsize := b.size_eq
    obtain ⟨hbefore, ⟨ho, hinner, hcl⟩, _⟩ := within_body b h
    apply (ih.rawNodes b.before (by omega) false hbefore).bind
    intro header hheader
    apply (ih.block b.inner (by omega) b.opener b.closer ho hcl hinner).bind
    intro body hbody
    exact spanned_raw ht.1 hbody.span_le.2 (fun _ => rfl)
      (List.forall_mem_append.2 ⟨hheader, List.forall_mem_singleton.2 hbody⟩)

lemma ifStmt_sure (ih : (sureLaw s n).Below (8 * size gs)) : (sureLaw s n).ifStmt gs := by
  intro t closer ht hc h
  rw [ifStmt]
  split
  · exact .fail (h.next hc)
  · next b _ =>
    have hsize := b.size_eq
    obtain ⟨hbefore, ⟨ho, hinner, hcl⟩, hafter⟩ := within_body b h
    apply (ih.rawNodes b.before (by omega) false hbefore).bind
    intro header hheader
    apply (ih.block b.inner (by omega) b.opener b.closer ho hcl hinner).bind
    intro body hbody
    have hend (more : List Placed) (last : Placed) (hmore : ∀ p ∈ more, Spanned n p.node)
        (hlast : Spanned n last.node) :
        Spanned n (raw s.source ((Span.ofToken t).through last.span) .rawStmt
          (header ++ body :: more)).node :=
      spanned_raw ht.1 hlast.span_le.2 (fun _ => rfl)
        (List.forall_mem_append.2 ⟨hheader, List.forall_mem_cons.2 ⟨hbody, hmore⟩⟩)
    split
    · exact hend [] body (by simp) hbody
    · next g rest ha =>
      rw [ha] at hafter hsize
      split
      · split
        · next i more =>
          split
          · apply (ih.ifStmt more (by simp at hsize; omega) i closer hafter.tail.leaf hc
              hafter.tail.tail).bind
            intro step hstep
            exact hend [step.node] step.node (List.forall_mem_singleton.2 hstep) hstep
          · exact .fail hafter.tail.leaf
        · next o inner c more =>
          apply (ih.block inner (by simp at hsize; omega) o c hafter.tail.opener
            hafter.tail.closer hafter.tail.inner).bind
          intro alt halt
          exact hend [alt] alt (List.forall_mem_singleton.2 halt) halt
        · exact .fail (hafter.tail.next hc)
      · exact hend [] body (by simp) hbody

lemma forStmt_sure (ih : (sureLaw s n).Below (8 * size gs + 4)) : (sureLaw s n).forStmt gs := by
  intro t closer ht hc h
  rw [forStmt]
  split
  · exact .fail (h.next hc)
  · next b _ =>
    have hsize := b.size_eq
    obtain ⟨hbefore, ⟨ho, hinner, hcl⟩, _⟩ := within_body b h
    dsimp only
    split
    · exact ih.bodyStmt gs (by omega) t closer ht hc h
    · next range operand hr =>
      have hs : operand <:+ b.before :=
        (List.suffix_cons range operand).trans (hr ▸ since_suffix _ _)
      have hoperand := size_le_of_suffix hs
      have hupTo := size_upTo_le (isKeyword .kwRange) b.before
      apply (ih.rangeVars _ (by omega) gs h (hbefore.upTo (isKeyword .kwRange))).bind
      rintro ⟨tok, names⟩ hnames
      dsimp only
      split
      · exact .fail ho
      · next st hst =>
        have hx : Within n st.toList := Stretch.ofList?_eq_some_iff.1 hst ▸ hbefore.suffix hs
        have hsizest := Stretch.size_of_ofList? hst
        apply (ih.expr st (by omega) false hx).bind
        intro x hx
        apply (ih.block b.inner (by omega) b.opener b.closer ho hcl hinner).bind
        intro body hbody
        refine spanned_of ht.1 hbody.span_le.2 ?_
        refine List.forall_mem_append.2 ⟨List.forall_mem_append.2 ⟨?_, ?_⟩, ?_⟩
        · exact spanned_option fun p hp => hnames p (List.mem_of_mem_head? hp)
        · exact spanned_option fun p hp => hnames p (List.mem_of_mem_tail (List.mem_of_mem_head? hp))
        · exact List.forall_mem_cons.2 ⟨hx, List.forall_mem_singleton.2 hbody⟩

lemma rangeVars_sure {bound : List TokenGroup} (ih : (sureLaw s n).Below (8 * size bound + 3)) :
    (sureLaw s n).rangeVars bound := by
  intro gs h hb
  rw [rangeVars]
  split
  · exact fun p hp => by cases hp
  · next g hg =>
    have hlast : g.last.Within n := by
      obtain ⟨ys, hys⟩ := List.getLast?_eq_some_iff.1 hg
      exact (hys ▸ hb).right.group_last
    have hsize := size_dropLast_le bound
    split
    · apply (ih.exprs bound.dropLast (by omega) hb.dropLast).bind
      intro names hnames
      split
      · exact .fail (h.next hlast)
      · exact hnames
    · exact .fail hlast

lemma identifier_sure {t : Token} (h : t.Within n) : Sure n (Spanned n ·.node) (identifier t) := by
  unfold identifier
  split
  · exact .leaf h rfl
  · exact .fail h

lemma varNames_sure {follow : Token} (hf : follow.Within n) (h : Within n gs) :
    Sure n (fun r => (∀ p ∈ r.1, Spanned n p.node) ∧ Within n r.2) (varNames follow gs) := by
  induction gs using varNames.induct with
  | case1 => exact .fail hf
  | case2 g =>
    apply (identifier_sure h.head.group_first).map
    intro ident hident
    exact ⟨List.forall_mem_singleton.2 hident, by simp [Within]⟩
  | case3 g sep gs ih =>
    rw [varNames]
    apply (identifier_sure h.head.group_first).bind
    intro ident hident
    split
    · apply (ih h.tail.tail).bind
      rintro ⟨names, rest⟩ ⟨hnames, hrest⟩
      exact ⟨List.forall_mem_cons.2 ⟨hident, hnames⟩, hrest⟩
    · exact ⟨List.forall_mem_singleton.2 hident, h.tail⟩

lemma varStmt_sure (ih : (sureLaw s n).Below (8 * size gs + 4)) : (sureLaw s n).varStmt gs := by
  intro t closer ht hc h
  have hv := varNames_sure ((h.since isSemicolon).next hc) (h.upTo isSemicolon)
  rw [varStmt]
  split
  · next e he =>
    rw [he] at hv
    exact hv
  · next names rest hok =>
    rw [hok] at hv
    obtain ⟨hnames, hrest⟩ := hv
    have h₁ := size_le_of_suffix (suffix_of_varNames hok)
    have h₂ := size_upTo_le isSemicolon gs
    have h₃ := size_upTo_le (isOp .assign) rest
    have hs := (List.tail_suffix _).trans (since_suffix (isOp .assign) rest)
    have h₄ := size_le_of_suffix hs
    apply (ih.varType (upTo (isOp .assign) rest) (by omega) (hrest.upTo _)).bind
    intro type htype
    apply (ih.exprs (since (isOp .assign) rest).tail (by omega) (hrest.suffix hs)).bind
    intro values hvalues
    have hst : Within n (⟨.leaf t, upTo isSemicolon gs⟩ : Stretch).toList :=
      Within.cons_iff.2 ⟨by simpa [Within] using ht, h.upTo _⟩
    refine spanned_of hst.first.1 hst.last.2 ?_
    simp only [Shape.children, List.forall_mem_append, List.forall_mem_map]
    exact ⟨⟨hnames, spanned_option htype⟩, hvalues⟩

end

lemma simple_sure {st : Stretch} (ih : (sureLaw s n).Below (8 * st.size + 3)) :
    (sureLaw s n).simple st := by
  intro h
  have hsize := st.size_statement_le
  have hupTo := size_upTo_le isTurn st.statement.toList
  have hin := h.statement
  rw [simple]
  dsimp only
  split
  · apply (ih.expr st.statement (by omega) false hin).bind
    intro x hx
    exact spanned_of hin.first.1 hin.last.2 (List.forall_mem_singleton.2 hx)
  · next turn right ht =>
    have hs : turn :: right <:+ st.statement.toList := ht ▸ since_suffix _ _
    have hright := size_le_of_suffix ((List.suffix_cons turn right).trans hs)
    have hturn := hin.suffix hs
    rw [Stretch.size_toList] at hright hupTo
    have hassign : Sure n (fun step : Step st.tail => Spanned n step.node.node) (do
        let lhs ← exprs s (upTo isTurn st.statement.toList)
        let rhs ← exprs s right
        if lhs.isEmpty || rhs.isEmpty then fail .malformedAssignment turn.first
        else
          let shape := Shape.assign (lhs.map Placed.node) turn.first.text (rhs.map Placed.node)
          let node : Placed :=
            { span := st.statement.span, shape := shape
              pieces := s.source.pieces st.statement.span 0 (lhs ++ rhs) }
          return ⟨node, _, since_suffix isSemicolon st.tail⟩) := by
      apply (ih.exprs _ (by omega) (hin.upTo isTurn)).bind
      intro lhs hl
      apply (ih.exprs right (by omega) hturn.tail).bind
      intro rhs hr
      split
      · exact .fail hturn.head.group_first
      · exact spanned_of hin.first.1 hin.last.2
          (List.forall_mem_append.2 ⟨List.forall_mem_map.2 hl, List.forall_mem_map.2 hr⟩)
    split
    · exact ih.rawStmt st (by omega) h
    · exact ih.rawStmt st (by omega) h
    · exact ih.rawStmt st (by omega) h
    · exact hassign

theorem sureLaw_inductive (hcs : ∀ c ∈ s.comments, c.Within n) : (sureLaw s n).Inductive where
  expr _ := expr_sure
  primary _ := primary_sure
  trailers _ := trailers_sure
  argument _ := argument_sure
  funcLit _ := funcLit_sure
  funcType _ := funcType_sure
  rawNodes _ := rawNodes_sure
  block _ := block_sure hcs
  items _ := items_sure
  clause _ := clause_sure hcs
  clauseBody _ := clauseBody_sure
  stmt _ := stmt_sure
  labeled _ := labeled_sure
  rawStmt _ := rawStmt_sure
  bodyStmt _ := bodyStmt_sure
  ifStmt _ := ifStmt_sure
  forStmt _ := forStmt_sure
  rangeVars _ := rangeVars_sure
  varStmt _ := varStmt_sure
  varType _ := varType_sure
  exprs _ := exprs_sure
  simple _ := simple_sure

end Parser

end ParallelTests
