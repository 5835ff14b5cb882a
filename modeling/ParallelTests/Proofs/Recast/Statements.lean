import ParallelTests.Proofs.Recast.Blocks

namespace ParallelTests

open TokenGroup

variable {s s' : TokenStream} {lost : Nat → Prop} {f : Bool} {x y z : Twin} {st st' : Stretch}
  {gs gs' : List TokenGroup}

namespace Bodies

variable {b : Body gs} {b' : Body gs'}

lemma leaves (h : Bodies lost s.comments s'.comments f x z b b' y) :
    Leaves lost s.comments s'.comments f x gs gs' z b.after b'.after :=
  ⟨b.before ++ [.pair .curly b.opener b.inner b.closer],
    b'.before ++ [.pair .curly b'.opener b'.inner b'.closer], _, by simp [← b.eq], by simp [← b'.eq],
    h.before.append h.body, h.after⟩

lemma faces (hb : Bodies lost s.comments s'.comments f x z b b' y)
    (h : Parser.Faces s s' lost f x gs gs' z) : Parser.Faces s s' lost false x b.before b'.before y ∧
      Parser.Faces s s' lost false y [.pair .curly b.opener b.inner b.closer]
        [.pair .curly b'.opener b'.inner b'.closer] ⟨b.closer, b'.closer⟩ := by
  obtain ⟨hbefore, hblock, -⟩ := Parser.has_body b h.source
  obtain ⟨hbefore', hblock', -⟩ := Parser.has_body b' h.copy
  exact ⟨⟨hb.before, hbefore, hbefore'⟩, ⟨hb.body, hblock, hblock'⟩⟩

end Bodies

namespace Parser

lemma upTo_toList (hd : st.head.isSemicolon = false) :
    upTo isSemicolon st.toList = st.statement.toList := by
  obtain ⟨g, gs⟩ := st
  replace hd : g.isSemicolon = false := hd
  simp [upTo, Stretch.toList, Stretch.statement, hd]

lemma since_toList (hd : st.head.isSemicolon = false) :
    since isSemicolon st.toList = since isSemicolon st.tail := by
  obtain ⟨g, gs⟩ := st
  replace hd : g.isSemicolon = false := hd
  simp [since, Stretch.toList, hd]

namespace Faces

lemma statement (h : Faces s s' lost f x st.toList st'.toList z) (hd : st.head.isSemicolon = false) :
    (∃ y, Faces s s' lost false x st.statement.toList st'.statement.toList y) ∧
      Leaves lost s.comments s'.comments f x st.toList st'.toList z (since isSemicolon st.tail)
        (since isSemicolon st'.tail) := by
  have hd' : st'.head.isSemicolon = false := (blind_isSemicolon _ _ h.twins.like).trans hd
  have hcut := h.cut_semicolon
  have hleaves := Leaves.since h.twins
  rw [upTo_toList hd, upTo_toList hd'] at hcut
  rw [since_toList hd, since_toList hd'] at hleaves
  exact ⟨hcut, hleaves⟩

end Faces

lemma text_eq {t t' : Token} (h : t'.lexeme = t.lexeme) : t'.text = t.text := by
  rw [Token.text, h]
  rfl

lemma rawStmt_mirrors (ih : (mirrorLaw s s').Below (8 * st.size + 1)) :
    (mirrorLaw s s').rawStmt st := by
  intro lost f x st' z h hd
  obtain ⟨⟨y, hst⟩, hleaves⟩ := h.statement hd
  have hsize := st.size_statement_le
  rw [rawStmt, rawStmt]
  apply (ih.rawNodes st.statement.toList (by simp; omega) hst false).bind
  exact fun ns ms hn => .ok ⟨copied_raw (fun _ => by rintro ⟨⟩) (fun _ => rfl)
    (fun _ _ => form_rawStmt) hn, hleaves⟩

lemma simple_eq : simple s st =
    match since isTurn st.statement.toList with
    | [] => do
      let x ← expr s false st.statement
      let node : Placed :=
        { span := st.statement.span, shape := .exprStmt x.node,
          pieces := s.source.pieces st.statement.span 0 [x] }
      return ⟨node, _, since_suffix isSemicolon st.tail⟩
    | turn :: right =>
      match turn.first.lexeme with
      | .op .inc | .op .dec | .op .arrow => rawStmt s st
      | _ => do
        let lhs ← exprs s (upTo isTurn st.statement.toList)
        let rhs ← exprs s right
        if lhs.isEmpty || rhs.isEmpty then fail .malformedAssignment turn.first
        else
          let shape := Shape.assign (lhs.map Placed.node) turn.first.text (rhs.map Placed.node)
          let node : Placed :=
            { span := st.statement.span, shape := shape,
              pieces := s.source.pieces st.statement.span 0 (lhs ++ rhs) }
          return ⟨node, _, since_suffix isSemicolon st.tail⟩ := by
  cases h : since isTurn st.statement.toList with
  | nil =>
    rw [simple]
    split
    · rfl
    · next h' => cases h.symm.trans h'
  | cons turn right =>
    rw [simple]
    split
    · next h' => cases h'.symm.trans h
    · next h' =>
      cases h'.symm.trans h
      rfl

lemma simple_mirrors (ih : (mirrorLaw s s').Below (8 * st.size + 3)) : (mirrorLaw s s').simple st := by
  intro lost f x st' z h hd
  obtain ⟨⟨y, hst⟩, hleaves⟩ := h.statement hd
  have hsize := st.size_statement_le
  have hupTo := size_upTo_le isTurn st.statement.toList
  obtain ⟨w, hup, hsi⟩ := hst.cut_strict blind_isTurn
  have hraw := ih.rawStmt st (by omega) h hd
  rw [simple_eq, simple_eq]
  cases hturn : since isTurn st.statement.toList with
  | nil =>
    rw [hturn] at hsi
    obtain ⟨-, hnil | ⟨⟨⟩, -⟩⟩ := hsi.twins.of_nil
    rw [hnil]
    apply (ih.expr st.statement (by omega) hst false).bind
    exact fun p p' hp => .ok ⟨copied_of_children (by rintro ⟨⟩) rfl rfl rfl (.cons hp .nil), hleaves⟩
  | cons turn right =>
    rw [hturn] at hsi
    obtain ⟨turn', right', v, hturn', hlike, -, hright⟩ := hsi.of_cons
    have hsize' : size right ≤ size st.statement.toList :=
      size_le_of_suffix ((List.suffix_cons turn right).trans (hturn ▸ since_suffix _ _))
    simp only [Stretch.size_toList] at hupTo hsize'
    rw [hturn']
    dsimp only
    rw [hlike.first]
    split
    · exact hraw
    · exact hraw
    · exact hraw
    · apply (ih.exprs _ (by omega) hup).bind
      intro lhs lhs' hlhs
      apply (ih.exprs right (by omega) hright).bind
      intro rhs rhs' hrhs
      rw [isEmpty_of_length_eq hlhs.length_eq.symm, isEmpty_of_length_eq hrhs.length_eq.symm,
        text_eq hlike.first]
      split
      · exact .fail
      · exact .ok ⟨copied_of_children (by rintro ⟨⟩) rfl
          (form_assign hlhs.length_nodes hrhs.length_nodes) rfl
            (List.rel_append hlhs.nodes hrhs.nodes), hleaves⟩

/-! ### Statements with a body -/

lemma copied_rawStmt {span span' : Span} {ns ms : List Placed} (h : CopiedAll lost ns ms) :
    (raw s.source span .rawStmt ns).node.Copied lost (raw s'.source span' .rawStmt ms).node :=
  copied_raw (fun _ => by rintro ⟨⟩) (fun _ => rfl) (fun _ _ => form_rawStmt) h

lemma bodyStmt_mirrors (ih : (mirrorLaw s s').Below (8 * size gs)) : (mirrorLaw s s').bodyStmt gs := by
  intro lost f x gs' z h t t' c c'
  rw [bodyStmt, bodyStmt]
  cases hb : Body.ofStatement gs with
  | none => exact .fail
  | some b =>
    obtain ⟨b', y, hb', hbodies⟩ := h.twins.body hb
    obtain ⟨hbefore, hbody⟩ := hbodies.faces h
    have hsize := b.size_eq
    rw [hb']
    apply (ih.rawNodes b.before (by omega) hbefore false).bind
    intro header header' hheader
    apply (ih.block b.inner (by omega) hbody).bind
    exact fun body body' hcopied =>
      .ok ⟨copied_rawStmt (List.rel_append hheader (.cons hcopied .nil)), hbodies.leaves⟩

lemma ifStmt_mirrors (ih : (mirrorLaw s s').Below (8 * size gs)) : (mirrorLaw s s').ifStmt gs := by
  intro lost f x gs' z h t t' c c'
  rw [ifStmt, ifStmt]
  cases hb : Body.ofStatement gs with
  | none => exact .fail
  | some b =>
    obtain ⟨b', y, hb', hbodies⟩ := h.twins.body hb
    obtain ⟨hbefore, hbody⟩ := hbodies.faces h
    obtain ⟨v, hafter, hfurther⟩ := h.leaves hbodies.leaves
    have hleaves := hbodies.leaves
    have hsize := b.size_eq
    rw [hb']
    clear hb hb' hbodies
    obtain ⟨before, o, inner, c₁, after, rfl⟩ := b
    obtain ⟨before', o', inner', c₁', after', rfl⟩ := b'
    dsimp only at *
    apply (ih.rawNodes before (by omega) hbefore false).bind
    intro header header' hheader
    apply (ih.block inner (by omega) hbody).bind
    intro body body' hcopied
    have hend {more more' : List Placed} {span span' : Span} (hmore : CopiedAll lost more more') :
        (raw s.source span .rawStmt (header ++ body :: more)).node.Copied lost
          (raw s'.source span' .rawStmt (header' ++ body' :: more')).node :=
      copied_rawStmt (List.rel_append hheader (.cons hcopied hmore))
    cases after with
    | nil =>
      obtain ⟨-, rfl | ⟨-, e, he, rfl⟩⟩ := hafter.twins.of_nil
      · exact .ok ⟨hend .nil, hleaves⟩
      · have helse : (leaf e).isKeyword .kwElse = false := by
          simp [TokenGroup.isKeyword, Token.isKeyword, he]
        simp only [helse, Bool.false_eq_true, if_false]
        exact .ok ⟨hend .nil, hleaves⟩
    | cons g rest =>
      obtain ⟨g', rest', w, rfl, hlike, hg, hrest⟩ := hafter.of_cons
      have hkey := blind_isKeyword .kwElse _ _ hlike
      dsimp only
      simp only [hkey]
      split
      · cases rest with
        | nil => exact .fail
        | cons i more =>
          cases i with
          | leaf i =>
            obtain ⟨i', more', u, rfl, hl, hi, hmore⟩ := hrest.of_leaf
            have hkey' : i'.isKeyword .kwIf = i.isKeyword .kwIf := by
              rw [Token.isKeyword, Token.isKeyword, hl]
            dsimp only
            simp only [hkey']
            split
            · apply (ih.ifStmt more (by simp at hsize; omega) hmore i i' c c').bind
              exact fun r r' hr => .ok ⟨hend (.cons hr.node .nil),
                hfurther ((hr.leaves.cons hi).cons hg)⟩
            · exact .fail
          | pair k o₂ inner₂ c₂ =>
            obtain ⟨o₂', inner₂', c₂', more', u, rfl, hpair, -, hmore⟩ := hrest.of_pair
            cases k with
            | round | square => exact .fail
            | curly =>
              apply (ih.block inner₂ (by simp at hsize; omega) hpair).bind
              exact fun alt alt' halt => .ok ⟨hend (.cons halt .nil),
                hfurther (.cons hg (.cons hpair.twins (.refl hmore.twins)))⟩
      · exact .ok ⟨hend .nil, hleaves⟩

lemma rangeVars_mirrors {bound : List TokenGroup}
    (ih : (mirrorLaw s s').Below (8 * size bound + 3)) : (mirrorLaw s s').rangeVars bound := by
  intro lost x bound' z h gs gs'
  obtain ⟨y, hdrop, hlast⟩ := h.dropLast
  rw [rangeVars, rangeVars]
  cases hl : bound.getLast? with
  | none =>
    rw [eq_none_of_rel hlast hl]
    exact .ok ⟨rfl, .nil⟩
  | some g =>
    obtain ⟨g', hl', hlike⟩ := exists_of_rel hlast hl
    rw [hl']
    dsimp only
    rw [blind_isOp .define _ _ hlike, blind_isOp .assign _ _ hlike]
    split
    · have := size_dropLast_le bound
      apply (ih.exprs bound.dropLast (by omega) hdrop).bind
      intro names names' hnames
      rw [isEmpty_of_length_eq hnames.length_eq.symm, ← hnames.length_eq, text_eq hlike.last]
      split
      · exact .fail
      · exact .ok ⟨rfl, hnames⟩
    · exact .fail

lemma forStmt_eq {t c : Token} : forStmt s t c gs =
    match Body.ofStatement gs with
    | none => fail .expectedBlock (next c gs)
    | some b =>
      match since (isKeyword .kwRange) b.before with
      | [] => bodyStmt s t c gs
      | _ :: operand => do
        let (tok, names) ← rangeVars s gs (upTo (isKeyword .kwRange) b.before)
        match Stretch.ofList? operand with
        | none => fail .expectedExpression b.opener
        | some st =>
          let x ← expr s false st
          let body ← block s b.opener b.inner b.closer
          let span := (Span.ofToken t).through body.span
          let key := names.head?.map Placed.node
          let value := names.tail.head?.map Placed.node
          let node : Placed :=
            { span := span, shape := .rangeStmt key value tok x.node body.node
              pieces := s.source.pieces span 0 (names ++ [x, body]) }
          return ⟨node, b.after, b.after_suffix⟩ := by
  rw [forStmt]
  cases Body.ofStatement gs with
  | none => rfl
  | some b =>
    dsimp only
    split
    · next h => rw [h]
    · next h =>
      simp only [h]
      congr 1
      funext r
      split
      · next h => rw [h]
      · next h => rw [h]

lemma forStmt_mirrors (ih : (mirrorLaw s s').Below (8 * size gs + 4)) : (mirrorLaw s s').forStmt gs := by
  intro lost f x gs' z h t t' c c'
  rw [forStmt_eq, forStmt_eq]
  cases hb : Body.ofStatement gs with
  | none => exact .fail
  | some b =>
    obtain ⟨b', y, hb', hbodies⟩ := h.twins.body hb
    obtain ⟨hbefore, hbody⟩ := hbodies.faces h
    obtain ⟨w, hup, hsi⟩ := hbefore.cut_strict (blind_isKeyword .kwRange)
    have hsize := b.size_eq
    rw [hb']
    dsimp only
    cases hr : since (isKeyword .kwRange) b.before with
    | nil =>
      rw [hr] at hsi
      obtain ⟨-, hnil | ⟨⟨⟩, -⟩⟩ := hsi.twins.of_nil
      rw [hnil]
      exact ih.bodyStmt gs (by omega) h t t' c c'
    | cons range operand =>
      rw [hr] at hsi
      obtain ⟨range', operand', v, hr', -, -, hoperand⟩ := hsi.of_cons
      have hs : operand <:+ b.before :=
        (List.suffix_cons range operand).trans (hr ▸ since_suffix _ _)
      have hsize' := size_le_of_suffix hs
      have hupTo := size_upTo_le (isKeyword .kwRange) b.before
      rw [hr']
      apply (ih.rangeVars _ (by omega) hup gs gs').bind
      rintro ⟨tok, names⟩ ⟨tok', names'⟩ ⟨rfl, hnames⟩
      dsimp only at hnames ⊢
      cases hst : Stretch.ofList? operand with
      | none => exact .fail
      | some st =>
        obtain ⟨st', hst', hface⟩ := exists_of_rel hoperand.ofList hst
        have hsizest := Stretch.size_of_ofList? hst
        rw [hst']
        apply (ih.expr st (by omega) hface false).bind
        intro p p' hp
        apply (ih.block b.inner (by omega) hbody).bind
        intro body body' hcopied
        refine .ok ⟨?_, hbodies.leaves⟩
        cases hnames with
        | nil => exact copied_of_children (by rintro ⟨⟩) rfl rfl rfl (.cons hp (.cons hcopied .nil))
        | cons hk hnames =>
          cases hnames with
          | nil =>
            exact copied_of_children (by rintro ⟨⟩) rfl rfl rfl (.cons hk (.cons hp (.cons hcopied .nil)))
          | cons hv _ =>
            exact copied_of_children (by rintro ⟨⟩) rfl rfl rfl
              (.cons hk (.cons hv (.cons hp (.cons hcopied .nil))))

/-! ### Declarations of variables, labels and the rest -/

lemma identifier_mirrors {t t' : Token} (h : t'.lexeme = t.lexeme) :
    Mirrors (fun p p' : Placed => p.node.Copied lost p'.node) (identifier t) (identifier t') := by
  rw [identifier, identifier, h]
  split
  · exact .ok (copied_ident t t' _)
  · exact .fail

lemma varNames_mirrors (h : Faces s s' lost false x gs gs' z) (follow follow' : Token) :
    Mirrors (fun r r' => CopiedAll lost r.1 r'.1 ∧ ∃ y, Faces s s' lost false y r.2 r'.2 z)
      (varNames follow gs) (varNames follow' gs') := by
  induction gs using varNames.induct generalizing x gs' with
  | case1 => exact .fail
  | case2 g =>
    obtain ⟨g', rest', y, rfl, hlike, -, hrest⟩ := h.of_cons
    obtain ⟨-, rfl | ⟨⟨⟩, -⟩⟩ := hrest.twins.of_nil
    rw [varNames, varNames]
    rintro r hr
    obtain ⟨p, hp, rfl⟩ := Except.map_eq_ok_iff.1 hr
    obtain ⟨p', hp', hcopied⟩ := identifier_mirrors hlike.first p hp
    exact ⟨_, Except.map_eq_ok_iff.2 ⟨p', hp', rfl⟩, .cons hcopied .nil, _, hrest⟩
  | case3 g sep gs ih =>
    obtain ⟨g', rest', y, rfl, hlike, -, hrest⟩ := h.of_cons
    obtain ⟨sep', more', w, rfl, hsep, -, hmore⟩ := hrest.of_cons
    rw [varNames, varNames]
    apply (identifier_mirrors hlike.first).bind
    intro p p' hp
    rw [blind_isOp .comma _ _ hsep]
    split
    · apply (ih hmore).bind
      rintro ⟨names, rest⟩ ⟨names', rest'⟩ ⟨hnames, hface⟩
      exact .ok ⟨.cons hp hnames, hface⟩
    · exact .ok ⟨.cons hp .nil, _, hrest⟩

lemma varStmt_eq {t c : Token} : varStmt s t c gs = do
    let r ← varNames (next c (since isSemicolon gs)) (upTo isSemicolon gs)
    let type ← varType s (upTo (isOp .assign) r.2)
    let values ← exprs s (since (isOp .assign) r.2).tail
    let span := (⟨.leaf t, upTo isSemicolon gs⟩ : Stretch).span
    let shape := Shape.varStmt (r.1.map Placed.node) (type.map Placed.node) (values.map Placed.node)
    let node : Placed :=
      { span := span, shape := shape
        pieces := s.source.pieces span 0 (r.1 ++ type.toList ++ values) }
    return ⟨node, _, since_suffix isSemicolon gs⟩ := by
  rw [varStmt]
  split
  · next h =>
    rw [h]
    rfl
  · next h =>
    conv_rhs => rw [h]
    rfl

lemma varStmt_mirrors (ih : (mirrorLaw s s').Below (8 * size gs + 4)) : (mirrorLaw s s').varStmt gs := by
  intro lost f x gs' z h t t' c c'
  obtain ⟨y, hup⟩ := h.cut_semicolon
  have hleaves := Leaves.since h.twins
  rw [varStmt_eq, varStmt_eq]
  apply (varNames_mirrors hup _ _).bind_of_ok
  rintro ⟨names, rest⟩ ⟨names', rest'⟩ hok - ⟨hnames, w, hrest⟩
  obtain ⟨v, htype, hvalues⟩ := hrest.cut_strict (blind_isOp .assign)
  obtain ⟨u, htail⟩ := hvalues.tail
  have h₁ := size_le_of_suffix (suffix_of_varNames hok)
  have h₂ := size_upTo_le isSemicolon gs
  have h₃ := size_upTo_le (isOp .assign) rest
  have h₄ := size_le_of_suffix ((List.tail_suffix _).trans (since_suffix (isOp .assign) rest))
  apply (ih.varType (upTo (isOp .assign) rest) (by omega) htype).bind
  intro type type' htype
  apply (ih.exprs (since (isOp .assign) rest).tail (by omega) htail).bind
  intro values values' hvalues
  refine .ok ⟨copied_of_children (by rintro ⟨⟩) rfl ?_ rfl ?_, hleaves⟩
  · refine form_varStmt hnames.length_nodes ?_ hvalues.length_nodes
    have := htype.length_eq
    cases type <;> cases type' <;> simp_all
  · have htypes : List.Forall₂ (Node.Copied lost) (type.map Placed.node).toList
        (type'.map Placed.node).toList := by
      rw [Option.toList_map, Option.toList_map]
      exact htype.nodes
    exact List.rel_append (List.rel_append hnames.nodes htypes) hvalues.nodes

lemma same_ident (t t' : Token) (name : String) :
    SameShape (Placed.ident t name).node (Placed.ident t' name).node := .mk rfl rfl .nil

lemma labeled_mirrors (ih : (mirrorLaw s s').Below (8 * size gs + 5)) : (mirrorLaw s s').labeled gs := by
  intro lost f x gs' z h c c' t t' name colon colon'
  have hbare : Node.Copied lost
      (Placed.node { span := Span.ofTokens t colon, shape := .labeled (Placed.ident t name).node none })
      (Placed.node { span := Span.ofTokens t' colon', shape := .labeled (Placed.ident t' name).node none }) :=
    fun _ => .mk rfl rfl (.cons (same_ident t t' name) .nil)
  rw [labeled.eq_def, labeled.eq_def]
  cases gs with
  | nil =>
    obtain ⟨-, rfl | ⟨-, e, he, rfl⟩⟩ := h.twins.of_nil
    · exact .ok ⟨hbare, .refl h.twins⟩
    · have hsemi : (leaf e).isSemicolon = true := by simp [isSemicolon, Token.isSemicolon, he]
      dsimp only
      rw [if_pos hsemi]
      exact .ok ⟨hbare, .refl h.twins⟩
  | cons g rest =>
    obtain ⟨g', rest', y, rfl, hlike, -⟩ := h.of_cons
    dsimp only
    rw [blind_isSemicolon _ _ hlike]
    split
    · exact .ok ⟨hbare, .refl h.twins⟩
    · next hg =>
      replace h : Faces s s' lost f x (⟨g, rest⟩ : Stretch).toList (⟨g', rest'⟩ : Stretch).toList z := h
      apply (ih.stmt ⟨g, rest⟩ (by simp) h (by simpa using hg) c c').bind
      intro r r' hr
      refine .ok ⟨fun hk => .mk rfl rfl (.cons (same_ident t t' name) (.cons ?_ .nil)), hr.leaves⟩
      exact copied_indented hr.node (hk.inside rfl _ rfl)

lemma stmt_mirrors (ih : (mirrorLaw s s').Below (8 * st.size + 4)) : (mirrorLaw s s').stmt st := by
  intro lost f x st' z h hd c c'
  obtain ⟨g, gs⟩ := st
  obtain ⟨g', gs'⟩ := st'
  have htail : size gs < (⟨g, gs⟩ : Stretch).size := Stretch.size_tail_lt ⟨g, gs⟩
  have hsimple := ih.simple ⟨g, gs⟩ (by omega) h hd
  have hraw := ih.rawStmt ⟨g, gs⟩ (by omega) h hd
  cases g with
  | pair k o inner cl =>
    obtain ⟨o', inner', cl', rest', y, he, hpair, -, hrest⟩ := h.of_pair
    cases he
    rw [stmt.eq_def, stmt.eq_def]
    cases k with
    | round | square => exact hsimple
    | curly =>
      apply (ih.block inner (by simp; omega) hpair).bind
      exact fun p p' hp => .ok ⟨hp, .cons hpair.twins (.refl hrest.twins)⟩
  | leaf t =>
    obtain ⟨t', rest', y, he, hl, ht, hrest⟩ := h.of_leaf
    cases he
    replace hrest : Faces s s' lost f y gs gs' z := hrest
    have hcons {r : Step gs} {r' : Step gs'}
        (hr : Takes₂ s s' lost f y gs gs' z r.node r'.node r.rest r'.rest) :
        Takes₂ s s' lost f x (.leaf t :: gs) (.leaf t' :: gs') z r.node r'.node r.rest r'.rest :=
      ⟨hr.node, hr.leaves.cons ht⟩
    rw [stmt.eq_def, stmt.eq_def]
    dsimp only
    rw [hl]
    split
    · cases gs with
      | nil =>
        obtain ⟨-, rfl | ⟨-, e, he, rfl⟩⟩ := hrest.twins.of_nil
        · exact hsimple.bind fun r r' hr => .ok hr
        · have hcolon : e.isOp .colon = false := by simp [Token.isOp, he]
          simp only [hcolon, Bool.false_eq_true, if_false]
          exact hsimple.bind fun r r' hr => .ok hr
      | cons g rest =>
        cases g with
        | pair =>
          obtain ⟨_, _, _, _, _, rfl, -⟩ := hrest.of_pair
          exact hsimple.bind fun r r' hr => .ok hr
        | leaf colon =>
          obtain ⟨colon', rest', w, rfl, hcl, hct, hmore⟩ := hrest.of_leaf
          have hop : colon'.isOp .colon = colon.isOp .colon := by rw [Token.isOp, Token.isOp, hcl]
          dsimp only
          rw [hop]
          split
          · apply (ih.labeled rest (by simp; omega) hmore c c' t t' _ colon colon').bind
            exact fun r r' hr => .ok ⟨hr.node, (hr.leaves.cons hct).cons ht⟩
          · exact hsimple.bind fun r r' hr => .ok hr
    · exact (ih.ifStmt gs (by omega) hrest t t' c c').imp_of_ok fun r r' _ _ hr => hcons hr
    · exact (ih.forStmt gs (by omega) hrest t t' c c').imp_of_ok fun r r' _ _ hr => hcons hr
    · exact (ih.bodyStmt gs (by omega) hrest t t' c c').imp_of_ok fun r r' _ _ hr => hcons hr
    · exact (ih.bodyStmt gs (by omega) hrest t t' c c').imp_of_ok fun r r' _ _ hr => hcons hr
    · have hvar := (ih.varStmt gs (by omega) hrest t t' c c').imp_of_ok fun r r' _ _ hr => hcons hr
      cases gs with
      | nil =>
        obtain ⟨-, rfl | ⟨-, e, he, rfl⟩⟩ := hrest.twins.of_nil
        · exact hvar
        · exact hvar
      | cons g rest =>
        cases g with
        | leaf =>
          obtain ⟨_, _, _, rfl, -⟩ := hrest.of_leaf
          exact hvar
        | pair k =>
          obtain ⟨_, _, _, _, _, rfl, -⟩ := hrest.of_pair
          cases k with
          | round => exact hraw
          | square | curly => exact hvar
    · exact hsimple
    · exact hraw
    · exact hsimple

/-! ### The whole grammar -/

theorem mirrorLaw_inductive (hs : s.Genuine) (hs' : s'.Genuine) : (mirrorLaw s s').Inductive where
  expr _ := expr_mirrors
  primary _ := primary_mirrors
  trailers _ := trailers_mirrors
  argument _ := argument_mirrors
  funcLit _ := funcLit_mirrors
  funcType _ := funcType_mirrors
  rawNodes _ := rawNodes_mirrors
  block _ := block_mirrors hs hs'
  items _ := items_mirrors hs hs'
  clause _ := clause_mirrors hs hs'
  clauseBody _ := clauseBody_mirrors hs hs'
  stmt _ := stmt_mirrors
  labeled _ := labeled_mirrors
  rawStmt _ := rawStmt_mirrors
  bodyStmt _ := bodyStmt_mirrors
  ifStmt _ := ifStmt_mirrors
  forStmt _ := forStmt_mirrors
  rangeVars _ := rangeVars_mirrors
  varStmt _ := varStmt_mirrors
  varType _ := varType_mirrors
  exprs _ := exprs_mirrors
  simple _ := simple_mirrors

end Parser

end ParallelTests
