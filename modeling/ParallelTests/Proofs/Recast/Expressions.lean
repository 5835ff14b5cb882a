import ParallelTests.Proofs.Recast.Mirror

namespace ParallelTests.Parser

open TokenGroup

variable {s s' : TokenStream} {lost : Nat → Prop} {f : Bool} {x y z : Twin} {st : Stretch}
  {gs gs' : List TokenGroup}

lemma copied_raw {shape : List Node → Shape} {span span' : Span} {ns ms : List Placed}
    (hk : ∀ ns, (shape ns).kind ≠ .labeled) (hc : ∀ ns, (shape ns).children = ns)
    (hf : ∀ ns ms : List Node, ms.length = ns.length → (shape ms).form = (shape ns).form)
    (h : CopiedAll lost ns ms) :
    (raw s.source span shape ns).node.Copied lost (raw s'.source span' shape ms).node := by
  refine copied_of_children (hk _) rfl (hf _ _ h.length_nodes) rfl ?_
  show List.Forall₂ _ (shape _).children (shape _).children
  rw [hc, hc]
  exact h.nodes

lemma copied_ident (t t' : Token) (name : String) :
    (Placed.ident t name).node.Copied lost (Placed.ident t' name).node :=
  copied_of_children (by rintro ⟨⟩) rfl rfl rfl .nil

lemma copied_basicLit {t t' : Token} (h : t'.lexeme = t.lexeme) :
    (Placed.basicLit t).node.Copied lost (Placed.basicLit t').node := by
  have htext : t'.text = t.text := by rw [Token.text, h]; rfl
  refine copied_of_children (by rintro ⟨⟩) rfl ?_ rfl .nil
  rw [Placed.basicLit, htext]
  rfl

lemma expr_mirrors (ih : (mirrorLaw s s').Below (8 * st.size + 1)) : (mirrorLaw s s').expr st := by
  intro lost x st' z h after
  rw [expr, expr]
  apply (ih.primary st (by omega) h).bind
  have hraw : Mirrors (fun p p' : Placed => p.node.Copied lost p'.node)
      (do return raw s.source st.span .rawExpr (← rawNodes s after st.toList))
      (do return raw s'.source st'.span .rawExpr (← rawNodes s' after st'.toList)) := by
    apply (ih.rawNodes st.toList (by simp) h after).bind
    exact fun ns ms hn => .ok (copied_raw (fun _ => by rintro ⟨⟩) (fun _ => rfl) (fun _ _ => form_rawExpr) hn)
  intro o o' ho
  cases ho with
  | none => exact hraw
  | @some r r' ht =>
    obtain ⟨node, rest, _⟩ := r
    obtain ⟨node', rest', _⟩ := r'
    obtain ⟨_, _, _, -, -, -, hrest⟩ := ht.leaves
    cases rest with
    | nil =>
      obtain ⟨-, rfl | ⟨⟨⟩, -⟩⟩ := hrest.of_nil
      exact .ok ht.node
    | cons g gs =>
      obtain ⟨_, _, _, rfl, -⟩ := hrest.of_cons
      exact hraw

lemma exprs_mirrors (ih : (mirrorLaw s s').Below (8 * size gs + 2)) : (mirrorLaw s s').exprs gs := by
  intro lost x gs' z h
  rw [exprs, exprs]
  apply Mirrors.attach_mapM (h.split (blind_isOp .comma))
  rintro st hst st' - ⟨u, w, hst'⟩
  have := Stretch.size_le_of_mem_split hst
  exact ih.expr st (by omega) hst' false

lemma varType_mirrors (ih : (mirrorLaw s s').Below (8 * size gs + 2)) :
    (mirrorLaw s s').varType gs := by
  intro lost x gs' z h
  rw [varType, varType]
  cases gs with
  | nil =>
    obtain ⟨-, rfl | ⟨⟨⟩, -⟩⟩ := h.twins.of_nil
    exact .ok .nil
  | cons g gs =>
    obtain ⟨g', rest', _, rfl, -⟩ := h.of_cons
    replace h : Faces s s' lost false x (⟨g, gs⟩ : Stretch).toList (⟨g', rest'⟩ : Stretch).toList z := h
    apply (ih.expr _ (by simp) h false).bind
    exact fun p p' hp => .ok (.cons hp .nil)

lemma primary_mirrors (ih : (mirrorLaw s s').Below (8 * st.size)) : (mirrorLaw s s').primary st := by
  intro lost x st' z h
  obtain ⟨g, gs⟩ := st
  obtain ⟨g', gs'⟩ := st'
  have htail : size gs < (⟨g, gs⟩ : Stretch).size := Stretch.size_tail_lt ⟨g, gs⟩
  rw [primary, primary]
  cases g with
  | pair k o inner c =>
    obtain ⟨o', inner', c', rest', y, he, -⟩ := h.of_pair
    cases he
    exact .ok .none
  | leaf t =>
    obtain ⟨t', rest', y, he, hl, ht, hrest⟩ := h.of_leaf
    cases he
    replace hrest : Faces s s' lost false y gs gs' z := hrest
    have htrailers (node node' : Placed) (hnode : node.node.Copied lost node'.node) :
        Mirrors (Option.Rel fun r r' => Takes₂ s s' lost false x (.leaf t :: gs) (.leaf t' :: gs') z
          r.node r'.node r.rest r'.rest)
          (do return some (← trailers s t node gs)) (do return some (← trailers s' t' node' gs')) := by
      apply (ih.trailers gs (by omega) hrest t t' node node' hnode).bind
      exact fun r r' hr => .ok (.some ⟨hr.node, hr.leaves.cons ht⟩)
    have hlit : (Placed.basicLit t).node.Copied lost (Placed.basicLit t').node := copied_basicLit hl
    dsimp only
    rw [hl]
    generalize hlexeme : t.lexeme = l
    split
    · cases gs with
      | nil =>
        obtain ⟨-, rfl | ⟨⟨⟩, -⟩⟩ := hrest.twins.of_nil
        exact .ok .none
      | cons g gs =>
        obtain ⟨g', rest', _, rfl, -⟩ := hrest.of_cons
        replace hrest : Faces s s' lost false y (⟨g, gs⟩ : Stretch).toList
          (⟨g', rest'⟩ : Stretch).toList z := hrest
        apply (ih.primary _ (by simp) hrest).bind
        intro o o' ho
        cases ho with
        | none => exact .ok .none
        | some hr =>
          exact .ok (.some ⟨copied_of_children (by rintro ⟨⟩) rfl rfl rfl (.cons hr.node .nil),
            hr.leaves.cons ht⟩)
    · exact htrailers _ _ (copied_ident t t' _)
    · exact htrailers _ _ hlit
    · exact htrailers _ _ hlit
    · exact htrailers _ _ hlit
    · apply (ih.funcLit gs (by omega) h (by simp [Token.isSemicolon, hlexeme])).bind
      intro o o' ho
      cases ho with
      | none => exact .ok .none
      | @some r r' hr =>
        have hsize := size_le_of_suffix r.rest_suffix
        obtain ⟨w, hmore, hfurther⟩ := h.leaves hr.leaves
        apply (ih.trailers r.rest (by omega) hmore t t' r.node r'.node hr.node).bind
        exact fun q q' hq => .ok (.some ⟨hq.node, hfurther hq.leaves⟩)
    · exact .ok .none

lemma trailers_mirrors (ih : (mirrorLaw s s').Below (8 * size gs)) :
    (mirrorLaw s s').trailers gs := by
  intro lost x gs' z h t t' node node' hnode
  cases gs with
  | nil =>
    obtain ⟨-, rfl | ⟨⟨⟩, -⟩⟩ := h.twins.of_nil
    rw [trailers.eq_def, trailers.eq_def]
    exact .ok ⟨hnode, .refl h.twins⟩
  | cons g gs =>
    cases g with
    | leaf p =>
      obtain ⟨p', rest', y, rfl, hp, hpt, hrest⟩ := h.of_leaf
      cases gs with
      | nil =>
        obtain ⟨-, rfl | ⟨⟨⟩, -⟩⟩ := hrest.twins.of_nil
        rw [trailers.eq_def, trailers.eq_def]
        exact .ok ⟨hnode, .refl h.twins⟩
      | cons g rest =>
        cases g with
        | pair =>
          obtain ⟨_, _, _, _, _, rfl, -⟩ := hrest.of_pair
          rw [trailers.eq_def, trailers.eq_def]
          exact .ok ⟨hnode, .refl h.twins⟩
        | leaf n =>
          obtain ⟨n', rest'', w, rfl, hn, hnt, hmore⟩ := hrest.of_leaf
          rw [trailers.eq_def, trailers.eq_def]
          dsimp only
          rw [hp, hn]
          split
          · refine (ih.trailers rest (by simp; omega) hmore t t' _ _ ?_).bind fun q q' hq =>
              .ok ⟨hq.node, (hq.leaves.cons hnt).cons hpt⟩
            exact copied_of_children (by rintro ⟨⟩) rfl rfl rfl
              (.cons hnode (.cons (copied_ident n n' _) .nil))
          · exact .ok ⟨hnode, .refl h.twins⟩
    | pair k o inner c =>
      obtain ⟨o', inner', c', rest', y, rfl, hpair, hinner, hrest⟩ := h.of_pair
      cases k with
      | square | curly =>
        rw [trailers.eq_def, trailers.eq_def]
        exact .ok ⟨hnode, .refl h.twins⟩
      | round =>
        replace hinner : Faces s s' lost false ⟨o, o'⟩ inner inner' y := hinner
        rw [trailers.eq_def, trailers.eq_def]
        refine Mirrors.bind (R := List.Forall₂ fun r r' : Placed × Bool =>
          r.1.node.Copied lost r'.1.node ∧ r'.2 = r.2) ?_ fun args args' hargs => ?_
        · apply Mirrors.attach_mapM (hinner.split (blind_isOp .comma))
          rintro a ha a' - ⟨u, w, hst⟩
          have := Stretch.size_le_of_mem_split ha
          exact ih.argument a (by simp; omega) hst
        · refine (ih.trailers gs (by simp) hrest t t' _ _ ?_).bind fun q q' hq =>
            .ok ⟨hq.node, hq.leaves.cons hpair.twins⟩
          have hall : CopiedAll lost (args.map (·.1)) (args'.map (·.1)) :=
            List.forall₂_map_left_iff.2 (List.forall₂_map_right_iff.2 (hargs.imp fun _ _ h => h.1))
          have hany : args'.any (·.2) = args.any (·.2) := any_eq_of_forall₂ hargs fun _ _ h => h.2
          rw [hany]
          exact copied_of_children (by rintro ⟨⟩) rfl (form_call hall.length_nodes) rfl
            (.cons hnode hall.nodes)

lemma argument_eq : argument s st =
    match dropEllipsis? st with
    | none => do return (← expr s false st, false)
    | some gs =>
      match Stretch.ofList? gs with
      | none => fail .expectedExpression st.first
      | some inner => do return (← expr s false inner, true) := by
  rw [argument]
  split
  · next h => rw [h]
  · next gs h =>
    simp only [h]
    split
    · next h => rw [h]
    · next inner h => rw [h]

lemma argument_mirrors (ih : (mirrorLaw s s').Below (8 * st.size + 2)) :
    (mirrorLaw s s').argument st := by
  intro lost x st' z h
  have hellipsis := h.dropEllipsis
  rw [argument_eq, argument_eq]
  cases hd : dropEllipsis? st with
  | none =>
    rw [eq_none_of_rel hellipsis hd]
    exact (ih.expr st (by omega) h false).bind fun p p' hp => .ok ⟨hp, rfl⟩
  | some gs =>
    obtain ⟨gs', hd', y, hgs⟩ := exists_of_rel hellipsis hd
    rw [hd']
    dsimp only
    cases hi : Stretch.ofList? gs with
    | none => exact .fail
    | some inner =>
      obtain ⟨inner', hi', hin⟩ := exists_of_rel hgs.ofList hi
      have hsize : inner.size ≤ st.size := by
        have := size_dropLast_le st.toList
        rwa [← eq_dropLast_of_dropEllipsis? hd, ← Stretch.size_of_ofList? hi] at this
      rw [hi']
      exact (ih.expr inner (by omega) hin false).bind fun p p' hp => .ok ⟨hp, rfl⟩

lemma funcLit_of_body {t o c bo bc l : Token} {params inner rest after : List TokenGroup}
    (h : Parser.signatureEnd c rest = (l, .pair .curly bo inner bc :: after)) :
    ∃ hs, funcLit s t (.pair .round o params c :: rest) = do
      let type ← funcType s o params c
      let body ← block s bo inner bc
      let span := Span.ofTokens t bc
      let signature := Text.trimEnd Text.isSpace (s.source.slice t.start bo.start)
      let node : Placed :=
        { span := span, shape := .funcLit signature type.node body.node,
          pieces := s.source.pieces span 1 [body] }
      return some ⟨node, after, hs⟩ := by
  have hs := ((List.suffix_cons _ _).trans (suffix_of_signatureEnd h)).trans
    (List.suffix_cons (.pair .round o params c) rest)
  refine ⟨hs, ?_⟩
  rw [funcLit]
  split
  · next h' =>
    rw [h] at h'
    cases h'
    rfl
  · next h' => exact absurd h (h' _ _ _ _ _)

lemma funcLit_of_none {t o c : Token} {params rest : List TokenGroup}
    (h : ∀ bo inner bc after, (Parser.signatureEnd c rest).2 ≠ .pair .curly bo inner bc :: after) :
    funcLit s t (.pair .round o params c :: rest) = return none := by
  rw [funcLit]
  split
  · next h' => exact absurd (congrArg Prod.snd h') (h _ _ _ _)
  · rfl

lemma isShown_of_funcType {o c : Token} {inner : List TokenGroup} {p : Placed}
    (h : funcType s o inner c = .ok p) : p.node.isShown = false := by
  rw [funcType_eq] at h
  dsimp only at h
  split at h
  · obtain ⟨params, -, h⟩ := Except.bind_eq_ok_iff.1 h
    split at h
    · obtain rfl := Except.pure_eq_ok_iff.1 h
      rfl
    · cases h
  · obtain ⟨params, -, h⟩ := Except.bind_eq_ok_iff.1 h
    obtain rfl := Except.pure_eq_ok_iff.1 h
    rfl

lemma span_of_block {o c : Token} {inner : List TokenGroup} {p : Placed}
    (h : block s o inner c = .ok p) : p.span = .ofTokens o c := by
  rw [block] at h
  obtain ⟨os, -, h⟩ := Except.bind_eq_ok_iff.1 h
  obtain rfl := Except.pure_eq_ok_iff.1 h
  rfl

lemma Faces.funcType {inner inner' : List TokenGroup} (hlaw : (mirrorLaw s s').funcType inner)
    (h : Faces s s' lost false x inner inner' z) (o c o' c' : Token) :
    Mirrors (fun p p' => ∀ a b, a ≤ x.source.stop → (∀ t ∈ tokens inner, a ≤ t.stop ∧ t.start ≤ b) →
      (∀ i, a ≤ i → i < b → ¬lost i) → SameShape p.node p'.node)
      (Parser.funcType s o inner c) (Parser.funcType s' o' inner' c') := by
  intro p hp
  obtain ⟨p', hp', -⟩ := hlaw h o c o' c' p hp
  refine ⟨p', hp', fun a b ha hb hl => ?_⟩
  obtain ⟨q, hq, hsame⟩ := hlaw (h.mono ha hb hl) o c o' c' p hp
  obtain rfl : p' = q := Except.ok.inj (hp'.symm.trans hq)
  exact hsame fun _ => id

lemma covers_of_scanned {src : List Char} {a b : Nat} (h : Scanned src a st.toList b) {u : Token}
    (hu : u ∈ tokens st.toList) : st.first.start ≤ u.stop ∧ u.start ≤ st.last.stop := by
  obtain ⟨hstart, hstop⟩ := h.trim.1.bounds u hu
  have := (h.chain.mem hu).2.2
  exact ⟨hstart.trans this, this.trans hstop⟩

lemma before_body {src : List Char} {a b : Nat} {t o c bo bc : Token} {pre params sig inner after : List TokenGroup}
    (h : Scanned src a (.leaf t :: (pre ++ .pair .round o params c ::
      (sig ++ .pair .curly bo inner bc :: after))) b) :
    bo.start ≤ bc.stop ∧ ∀ u ∈ o :: tokens params, t.start ≤ u.stop ∧ u.start ≤ bo.start := by
  let st : Stretch := ⟨.leaf t, pre ++ .pair .round o params c :: sig⟩
  have hst : .leaf t :: (pre ++ .pair .round o params c :: (sig ++ .pair .curly bo inner bc :: after)) =
      st.toList ++ (⟨.pair .curly bo inner bc, after⟩ : Stretch).toList := by
    simp [st, Stretch.toList]
  rw [hst] at h
  obtain ⟨m, hleft, hright⟩ := h.split
  have hm : st.last.stop ≤ bo.start :=
    hleft.trim.2.2.trans (hright.bounds bo (by simp [Stretch.toList])).1
  refine ⟨(covers_of_scanned hright (u := bc) (by simp [Stretch.toList])).1, fun u hu => ?_⟩
  have hmem : u ∈ tokens st.toList := by
    rcases List.mem_cons.1 hu with rfl | hu
    · simp [st, Stretch.toList]
    · simp [st, Stretch.toList, hu]
  exact (covers_of_scanned hleft hmem).imp_right fun h => h.trans hm

lemma Faces.not_body (h : Faces s s' lost f x gs gs' z)
    (hno : ∀ bo inner bc after, gs ≠ .pair .curly bo inner bc :: after) (bo : Token)
    (inner : List TokenGroup) (bc : Token) (after : List TokenGroup) :
    gs' ≠ .pair .curly bo inner bc :: after := by
  rintro rfl
  cases gs with
  | nil => obtain ⟨-, he | ⟨-, e, -, he⟩⟩ := h.twins.of_nil <;> cases he
  | cons g gs =>
    have hlike := h.twins.like
    generalize hg : TokenGroup.pair .curly bo inner bc = g' at hlike
    cases hlike with
    | leaf => cases hg
    | pair =>
      cases hg
      exact hno _ _ _ _ rfl

lemma funcLit_mirrors (ih : (mirrorLaw s s').Below (8 * size gs)) : (mirrorLaw s s').funcLit gs := by
  intro lost f x t t' gs' z h ht
  obtain ⟨_, _, y, he, hl, htw, hrest⟩ := h.of_leaf
  cases he
  cases gs with
  | nil =>
    obtain ⟨-, rfl | ⟨-, e, -, rfl⟩⟩ := hrest.twins.of_nil
    all_goals
      rw [funcLit.eq_def, funcLit.eq_def]
      exact .ok .none
  | cons g rest =>
    cases g with
    | leaf =>
      obtain ⟨_, _, _, rfl, -⟩ := hrest.of_leaf
      rw [funcLit.eq_def, funcLit.eq_def]
      exact .ok .none
    | pair k o params c =>
      obtain ⟨o', params', c', rest', w, rfl, hpair, hparams, hmore⟩ := hrest.of_pair
      cases k with
      | square | curly =>
        rw [funcLit.eq_def, funcLit.eq_def]
        exact .ok .none
      | round =>
        replace hparams : Faces s s' lost false ⟨o, o'⟩ params params' w := hparams
        have hlast : c'.lexeme = c.lexeme := hpair.twins.like.last
        obtain ⟨-, hsig⟩ := hmore.twins.signatureEnd hlast
        obtain ⟨v, hend, hfurther⟩ := hmore.leaves hsig
        by_cases hb : ∃ bo inner bc after, (signatureEnd c rest).2 = .pair .curly bo inner bc :: after
        · obtain ⟨bo, inner, bc, after, hse⟩ := hb
          rw [hse] at hend hfurther
          obtain ⟨bo', inner', bc', after', u, hse', hbody, -, hafter⟩ := hend.of_pair
          rw [hse'] at hfurther
          obtain ⟨_, he⟩ := @funcLit_of_body s t o c bo bc _ params inner rest after (Prod.ext rfl hse)
          obtain ⟨_, he'⟩ := funcLit_of_body (Prod.ext rfl hse')
          rw [he, he']
          have hse : signatureEnd c rest = ((signatureEnd c rest).1, .pair .curly bo inner bc :: after) :=
            Prod.ext rfl hse
          have hsize := size_le_of_suffix (suffix_of_signatureEnd hse)
          simp only [size_cons, weight_pair] at hsize
          obtain ⟨sig, hrest', -⟩ := of_signatureEnd hse
          obtain ⟨a, b, hscan⟩ := h.source.holds
          rw [← List.nil_append (_ :: rest), hrest'] at hscan
          obtain ⟨hbrace, hbefore⟩ := before_body hscan
          apply (hparams.funcType (ih.funcType params (by simp; omega)) o c o' c').bind_of_ok
          intro type type' htype _ hsame
          apply (ih.block inner (by simp; omega) hbody).bind_of_ok
          intro body body' hb _ hcopied
          refine .ok (.some ⟨fun hk => ?_, ?_⟩)
          · have hchildren := hk.children rfl (by rintro ⟨⟩)
            refine .mk form_funcLit rfl (.cons (hsame t.start bo.start ?_ ?_ ?_)
              (.cons (hcopied (hchildren _ (.tail _ (.head _)))) .nil))
            · exact (hbefore o (by simp)).1
            · exact fun u hu => hbefore u (by simp [hu])
            · intro i hi hi'
              refine hk.own rfl (by rintro ⟨⟩) _ rfl i hi (hi'.trans_le hbrace) fun d hd hn span hspan => ?_
              rcases List.mem_cons.1 hd with rfl | hd
              · rw [isShown_of_funcType htype] at hn
                cases hn
              · obtain rfl := List.mem_singleton.1 hd
                obtain rfl : body.span = span := Option.some.inj hspan
                rw [span_of_block hb]
                exact fun h => absurd h.1 (Nat.not_le.2 hi')
          · exact .cons htw (.cons hpair.twins (hfurther (.cons hbody.twins (.refl hafter.twins))))
        · have hno (bo : Token) (inner : List TokenGroup) (bc : Token) (after : List TokenGroup) :
              (signatureEnd c rest).2 ≠ .pair .curly bo inner bc :: after :=
            fun he => hb ⟨_, _, _, _, he⟩
          rw [funcLit_of_none hno, funcLit_of_none (hend.not_body hno)]
          exact .ok .none

/-! ### Parameters -/

inductive Param.Copied (lost : Nat → Prop) : Param → Param → Prop
  | name {p p' : Placed} (h : p.node.Copied lost p'.node) : Copied lost (.name p) (.name p')
  | typed {span span' : Span} {p p' type type' : Placed} (h : p.node.Copied lost p'.node)
      (ht : type.node.Copied lost type'.node) : Copied lost (.typed span p type) (.typed span' p' type')

lemma fields_copied {params params' : List Param} {pending pending' : List Placed}
    (hp : CopiedAll lost pending pending') (h : List.Forall₂ (Param.Copied lost) params params') :
    List.Forall₂ (fun p p' : Placed => p.node.Spared lost p'.node) (fields pending params).1
      (fields pending' params').1 ∧
        (fields pending' params').2.length = (fields pending params).2.length := by
  induction h generalizing pending pending' with
  | nil => exact ⟨.nil, hp.length_eq.symm⟩
  | cons hparam _ ih =>
    cases hparam with
    | name hident => exact ih (List.rel_append hp (.cons hident .nil))
    | typed hident htype =>
      obtain ⟨hdone, hleft⟩ := ih .nil
      have hnames : CopiedAll lost (pending ++ [_]) (pending' ++ [_]) :=
        List.rel_append hp (.cons hident .nil)
      refine ⟨.cons (spared_of_children (form_field hnames.length_nodes) rfl ?_) hdone, hleft⟩
      exact List.rel_append (hnames.nodes.imp fun _ _ h => h.spared) (.cons htype.spared .nil)

namespace Faces

variable {st' : Stretch}

lemma paramName (h : Faces s s' lost false x st.toList st'.toList z) :
    Option.Rel (fun r r' : Token × String × Stretch => r'.2.1 = r.2.1 ∧
      ∃ y, Faces s s' lost false y r.2.2.toList r'.2.2.toList z) (paramName? st) (paramName? st') := by
  obtain ⟨g, gs⟩ := st
  obtain ⟨g', gs'⟩ := st'
  cases g with
  | pair =>
    obtain ⟨_, _, _, _, _, he, -⟩ := h.of_pair
    cases he
    exact .none
  | leaf t =>
    obtain ⟨t', rest', y, he, hl, ht, hrest⟩ := h.of_leaf
    cases he
    cases gs with
    | nil =>
      obtain ⟨-, rfl | ⟨⟨⟩, -⟩⟩ := hrest.twins.of_nil
      exact .none
    | cons g gs =>
      obtain ⟨g', rest', w, rfl, hlike, hg, hmore⟩ := hrest.of_cons
      simp only [paramName?]
      rw [hl]
      generalize hlexeme : t.lexeme = l
      split
      · next name =>
        -- an identifier is a word, so what follows it touches it on both sides
        obtain rfl := ht.eq_last (by simp [isSemicolon, Token.isSemicolon, hlexeme])
        have hop (o : Operator) : g'.first.isOp o = g.first.isOp o := by
          rw [Token.isOp, Token.isOp, hlike.first]
        have htouch (hs : g.first.isOp (.opening .square) = true) :
            g.first.start = t.stop ↔ g'.first.start = t'.stop := by
          have hsq : g.first.lexeme = .op (.opening .square) := by simpa [Token.isOp] using hs
          have hword : g.isSemicolon = false := by
            cases g with
            | leaf u => simp [isSemicolon, Token.isSemicolon, show u.lexeme = _ from hsq]
            | pair => rfl
          exact (hg.next_first hword).meets.touch ⟨name, hlexeme⟩ hsq
        have hcond : (g'.first.isOp .period ||
            (g'.first.isOp (.opening .square) && decide (g'.first.start = t'.stop))) =
              (g.first.isOp .period ||
                (g.first.isOp (.opening .square) && decide (g.first.start = t.stop))) := by
          rw [hop, hop]
          cases hs : g.first.isOp (.opening .square) with
          | false => rfl
          | true => rw [decide_eq_decide.2 (htouch hs)]
        rw [hcond]
        split
        · exact .none
        · exact .some ⟨rfl, _, hrest⟩
      · exact .none

lemma singleIdent (h : Faces s s' lost false x st.toList st'.toList z) :
    Option.Rel (fun p p' : Placed => p.node.Copied lost p'.node) (singleIdent? st) (singleIdent? st') := by
  obtain ⟨g, gs⟩ := st
  obtain ⟨g', gs'⟩ := st'
  cases g with
  | pair =>
    obtain ⟨_, _, _, _, _, he, -⟩ := h.of_pair
    cases he
    exact .none
  | leaf t =>
    obtain ⟨t', rest', y, he, hl, ht, hrest⟩ := h.of_leaf
    cases he
    cases gs with
    | cons g gs =>
      obtain ⟨g', rest', w, rfl, -⟩ := hrest.of_cons
      exact .none
    | nil =>
      obtain ⟨-, rfl | ⟨⟨⟩, -⟩⟩ := hrest.twins.of_nil
      simp only [singleIdent?]
      rw [hl]
      split
      · exact .some (copied_ident t t' _)
      · exact .none

end Faces

lemma readParam_mirrors {st' : Stretch} (h : Faces s s' lost false x st.toList st'.toList z)
    (ih : ∀ type : Stretch, type.size < st.size → (mirrorLaw s s').expr type) :
    Mirrors (Param.Copied lost) (readParam s st) (readParam s' st') := by
  have hname := h.paramName
  have hident := h.singleIdent
  unfold readParam
  cases hp : paramName? st with
  | some r =>
    obtain ⟨t, name, type⟩ := r
    obtain ⟨⟨t', name', type'⟩, hp', rfl, y, htype⟩ := exists_of_rel hname hp
    rw [hp']
    apply (ih type (size_lt_of_paramName? hp) htype false).bind
    exact fun p p' hp => .ok (.typed (copied_ident t t' _) hp)
  | none =>
    rw [eq_none_of_rel hname hp]
    dsimp only
    cases hi : singleIdent? st with
    | some ident =>
      obtain ⟨ident', hi', hcopied⟩ := exists_of_rel hident hi
      rw [hi']
      exact .ok (.name hcopied)
    | none => exact .fail

lemma funcType_mirrors {inner : List TokenGroup} (ih : (mirrorLaw s s').Below (8 * size inner + 2)) :
    (mirrorLaw s s').funcType inner := by
  intro lost x inner' z h o c o' c'
  have hsplit := h.split (blind_isOp .comma)
  have hexpr (st : Stretch) (hst : st ∈ Stretch.split (isOp .comma) inner) (type : Stretch)
      (ht : type.size ≤ st.size) : (mirrorLaw s s').expr type := by
    have := Stretch.size_le_of_mem_split hst
    exact ih.expr type (by omega)
  have hany : (Stretch.split (isOp .comma) inner').any (fun st => (paramName? st).isSome) =
      (Stretch.split (isOp .comma) inner).any fun st => (paramName? st).isSome := by
    exact any_eq_of_forall₂ hsplit fun st st' ⟨u, w, hst⟩ => isSome_of_rel hst.paramName
  rw [funcType_eq, funcType_eq]
  dsimp only
  rw [hany]
  split
  · apply (Mirrors.mapM hsplit fun st hst st' _ ⟨u, w, hface⟩ =>
      readParam_mirrors hface fun type ht => hexpr st hst type ht.le).bind
    intro params params' hparams
    obtain ⟨hdone, hleft⟩ := fields_copied .nil hparams
    rw [isEmpty_of_length_eq hleft]
    split
    · refine .ok (spared_of_children (form_funcType ?_) rfl ?_)
      · simp [hdone.length_eq]
      · exact List.forall₂_map_left_iff.2 (List.forall₂_map_right_iff.2 hdone)
    · exact .fail
  · refine Mirrors.bind (R := List.Forall₂ fun p p' : Placed => p.node.Spared lost p'.node)
      (Mirrors.mapM hsplit fun st hst st' _ ⟨u, w, hface⟩ => ?_) fun params params' hparams => ?_
    · apply (hexpr st hst st le_rfl hface false).bind
      exact fun p p' hp => .ok (spared_of_children (form_field rfl) rfl (.cons hp.spared .nil))
    · refine .ok (spared_of_children (form_funcType ?_) rfl ?_)
      · simp [hparams.length_eq]
      · exact List.forall₂_map_left_iff.2 (List.forall₂_map_right_iff.2 hparams)

lemma rawNodes_mirrors (ih : (mirrorLaw s s').Below (8 * size gs)) : (mirrorLaw s s').rawNodes gs := by
  intro lost f x gs' z h after
  cases gs with
  | nil =>
    obtain ⟨-, rfl | ⟨-, e, he, rfl⟩⟩ := h.twins.of_nil
    · rw [rawNodes.eq_def, rawNodes.eq_def]
      exact .ok .nil
    · have hfunc : e.isKeyword .kwFunc = false := by simp [Token.isKeyword, he]
      rw [rawNodes.eq_def, rawNodes.eq_def]
      dsimp only
      rw [hfunc, Bool.false_and, if_neg (by simp), rawNodes.eq_def]
      exact .ok .nil
  | cons g rest =>
    cases g with
    | pair k o inner c =>
      obtain ⟨o', inner', c', rest', y, rfl, -, hinner, hrest⟩ := h.of_pair
      rw [rawNodes.eq_def, rawNodes.eq_def]
      apply (ih.rawNodes inner (by simp; omega) hinner false).bind
      intro here here' hhere
      apply (ih.rawNodes rest (by simp) hrest _).bind
      exact fun ps ps' hps => .ok (List.rel_append hhere hps)
    | leaf t =>
      obtain ⟨t', rest', y, rfl, hl, ht, hrest⟩ := h.of_leaf
      have hkey (k : Keyword) : t'.isKeyword k = t.isKeyword k := by
        rw [Token.isKeyword, Token.isKeyword, hl]
      rw [rawNodes.eq_def, rawNodes.eq_def]
      dsimp only
      rw [hkey, hkey]
      split
      · next hfunc =>
        have hsemi := isSemicolon_of_isKeyword (Bool.and_eq_true_iff.1 hfunc).1
        apply (ih.funcLit rest (by simp) h hsemi).bind
        intro o o' ho
        cases ho with
        | none => exact ih.rawNodes rest (by simp) hrest false
        | @some r r' hr =>
          have hsize := size_le_of_suffix r.rest_suffix
          obtain ⟨w, hmore, -⟩ := h.leaves hr.leaves
          apply (ih.rawNodes r.rest (by simp; omega) hmore false).bind
          exact fun ps ps' hps => .ok (.cons hr.node hps)
      · exact ih.rawNodes rest (by simp) hrest _

end ParallelTests.Parser
