import ParallelTests.Proofs.Recast.Statements

namespace ParallelTests.Parser

open TokenGroup

variable {s s' : TokenStream} {lost : Nat → Prop} {f : Bool} {x y z : Twin} {st st' : Stretch}
  {gs gs' : List TokenGroup} {t t' c c' : Token}

/-! ### Imports -/

lemma of_importSpec {follow : Token} {ts : List Token} {p : Placed}
    (h : importSpec follow ts = .ok p) : ∃ t text, t.lexeme = .string text ∧
      (ts = [t] ∧ p.shape = .importSpec none (String.ofList text.toList.tail.dropLast) ∨
        ∃ n, ts = [n, t] ∧
          p.shape = .importSpec (some n.text) (String.ofList text.toList.tail.dropLast)) := by
  have hspec {name : Option String} {t : Token} (h : importSpec.spec name t = .ok p) :
      ∃ text, t.lexeme = .string text ∧
        p.shape = .importSpec name (String.ofList text.toList.tail.dropLast) := by
    rw [importSpec.spec] at h
    split at h
    · next text hl =>
      obtain rfl := Except.ok.inj h
      exact ⟨text, hl, rfl⟩
    · cases h
  match ts with
  | [] => cases h
  | [t] =>
    obtain ⟨text, hl, hp⟩ := hspec h
    exact ⟨t, text, hl, .inl ⟨rfl, hp⟩⟩
  | [n, t] =>
    obtain ⟨text, hl, hp⟩ := hspec h
    exact ⟨t, text, hl, .inr ⟨n, rfl, hp⟩⟩
  | _ :: _ :: _ :: _ => cases h

lemma eq_leaf_of_tokens (h : tokens gs = [t]) : gs = [.leaf t] := by
  cases gs with
  | nil => cases h
  | cons g rest =>
    have hrest : rest = [] := by
      cases rest with
      | nil => rfl
      | cons g' more =>
        obtain ⟨ts, hg⟩ := g.spelled_eq_first
        obtain ⟨us, hg'⟩ := g'.spelled_eq_first
        simp [tokens_cons, hg, hg'] at h
    subst hrest
    cases g with
    | leaf u => simpa using h
    | pair => simp at h

lemma importSpec_mirrors (h : Faces s s' lost false x gs gs' z) (follow follow' : Token) :
    Mirrors (fun p p' : Placed => p'.shape = p.shape) (importSpec follow (tokens gs))
      (importSpec follow' (tokens gs')) := by
  intro p hp
  have hpath {t t' : Token} {text : String} (hl : t.lexeme = .string text) (he : t'.lexeme = t.lexeme)
      (name : Option String) : ∃ q, importSpec.spec name t' = .ok q ∧
        q.shape = .importSpec name (String.ofList text.toList.tail.dropLast) := by
    rw [importSpec.spec, he, hl]
    exact ⟨_, rfl, rfl⟩
  obtain ⟨t, text, hl, ⟨hts, hshape⟩ | ⟨n, hts, hshape⟩⟩ := of_importSpec hp
  · obtain rfl := eq_leaf_of_tokens hts
    obtain ⟨t', rest', y, rfl, he, -, hrest⟩ := h.of_leaf
    obtain ⟨-, rfl | ⟨⟨⟩, -⟩⟩ := hrest.twins.of_nil
    obtain ⟨q, hq, hqs⟩ := hpath hl he none
    exact ⟨q, hq, hqs.trans hshape.symm⟩
  · cases gs with
    | nil => cases hts
    | cons g rest =>
      cases g with
      | pair k o inner c =>
        -- no pair of brackets ends with a path
        obtain ⟨a, b, hscan⟩ := h.source.holds
        have hc : c.lexeme = .op (.closing k) := by
          cases hscan.matched _ (List.mem_cons_self ..) with
          | pair _ hc _ => exact hc
        have hrest : tokens inner ++ c :: tokens rest = [t] := by simpa using congrArg List.tail hts
        have hct : c = t := by
          cases hi : tokens inner with
          | nil =>
            rw [hi] at hrest
            simpa using congrArg List.head? hrest
          | cons => simp [hi] at hrest
        rw [hct, hl] at hc
        cases hc
      | leaf u =>
        obtain ⟨u', rest', y, rfl, hu, -, hrest⟩ := h.of_leaf
        obtain ⟨rfl, hrest'⟩ : u = n ∧ tokens rest = [t] := by simpa using hts
        obtain rfl := eq_leaf_of_tokens hrest'
        obtain ⟨t', more', w, rfl, he, -, hmore⟩ := hrest.of_leaf
        obtain ⟨-, rfl | ⟨⟨⟩, -⟩⟩ := hmore.twins.of_nil
        obtain ⟨q, hq, hqs⟩ := hpath hl he (some u'.text)
        exact ⟨q, hq, by show q.shape = p.shape; rw [hqs, hshape, text_eq hu]⟩

structure Led (s s' : TokenStream) (lost : Nat → Prop) (t t' : Token) (gs gs' : List TokenGroup)
    (z : Twin) : Prop where
  faces : Faces s s' lost false ⟨t, t'⟩ gs gs' z
  has : s.Has (.leaf t :: gs)

lemma importDecl_mirrors (h : Led s s' lost t t' gs gs' z) :
    Mirrors (fun r r' => Takes₂ s s' lost false ⟨t, t'⟩ gs gs' z r.node r'.node r.rest r'.rest)
      (importDecl s t gs) (importDecl s' t' gs') := by
  obtain ⟨h, -⟩ := h
  have hleaves := Leaves.since h.twins
  cases gs with
  | nil => exact .error
  | cons g rest =>
    obtain ⟨g', rest', y, rfl, hlike, -⟩ := h.of_cons
    have hcopied {specs specs' : List Placed} {span span' : Span}
        (h : List.Forall₂ (fun p p' : Placed => p'.shape = p.shape) specs specs') :
        (verbatim s span (.importDecl (specs.map Placed.node))).node.Copied lost
          (verbatim s' span' (.importDecl (specs'.map Placed.node))).node := by
      refine copied_of_children (by rintro ⟨⟩) rfl (form_importDecl ?_) rfl .nil
      induction h with
      | nil => rfl
      | cons hp _ ih => exact List.cons_eq_cons.2 ⟨hp, ih⟩
    obtain ⟨w, hup⟩ := h.cut_semicolon
    cases hlike with
    | leaf =>
      rw [importDecl.eq_def, importDecl.eq_def]
      apply (importSpec_mirrors hup _ _).bind
      intro p p' hp
      exact .ok ⟨hcopied (.cons hp .nil), hleaves⟩
    | @pair k o o' cl cl' inner inner' =>
      cases k with
      | square | curly =>
        rw [importDecl.eq_def, importDecl.eq_def]
        apply (importSpec_mirrors hup _ _).bind
        intro p p' hp
        exact .ok ⟨hcopied (.cons hp .nil), hleaves⟩
      | round =>
        obtain ⟨_, _, _, _, w, he, -, hinner, -⟩ := h.of_pair
        cases he
        replace hinner : Faces s s' lost false ⟨o, o'⟩ inner inner' w := hinner
        have hspecs : Mirrors (List.Forall₂ fun p p' : Placed => p'.shape = p.shape)
            ((Stretch.split isSemicolon inner).mapM fun st => importSpec cl (tokens st.toList))
            ((Stretch.split isSemicolon inner').mapM fun st => importSpec cl' (tokens st.toList)) :=
          Mirrors.mapM (hinner.split blind_isSemicolon) fun st _ st' _ ⟨_, _, hst⟩ =>
            importSpec_mirrors hst cl cl'
        rw [importDecl.eq_def, importDecl.eq_def]
        apply hspecs.bind
        intro specs specs' hs
        exact .ok ⟨hcopied hs, hleaves⟩

lemma genDecl_mirrors (hlaw : ∀ gs, (mirrorLaw s s').rawNodes gs)
    (h : Led s s' lost t t' gs gs' z) :
    Mirrors (fun r r' => Takes₂ s s' lost false ⟨t, t'⟩ gs gs' z r.node r'.node r.rest r'.rest)
      (genDecl s t gs) (genDecl s' t' gs') := by
  obtain ⟨w, hup⟩ := h.faces.cut_semicolon
  rw [genDecl, genDecl]
  apply (hlaw _ hup false).bind
  exact fun ns ms hn => .ok ⟨copied_raw (fun _ => by rintro ⟨⟩) (fun _ => rfl)
    (fun _ _ => form_genDecl) hn, .since h.faces.twins⟩

lemma forall₂_filterMap {α β : Type} {R : α → β → Prop} {as : List (Option α)} {bs : List (Option β)}
    (h : List.Forall₂ (Option.Rel R) as bs) :
    List.Forall₂ R (as.filterMap id) (bs.filterMap id) := by
  induction h with
  | nil => exact .nil
  | cons hab _ ih =>
    cases hab with
    | none => exact ih
    | some h => exact .cons h ih

lemma identifier_shape (h : t'.lexeme = t.lexeme) :
    Mirrors (fun p p' : Placed => p'.shape = p.shape) (identifier t) (identifier t') := by
  rw [identifier, identifier, h]
  split
  · exact .ok rfl
  · exact .fail

/-! ### Types -/

lemma typeParams_mirrors {name name' : Token} {text : String} (hn : name.lexeme = .ident text)
    (h : Faces s s' lost false ⟨name, name'⟩ gs gs' z) :
    (typeParams name' gs').1 = (typeParams name gs).1 ∧
      ∃ y, Faces s s' lost false y (typeParams name gs).2 (typeParams name' gs').2 z := by
  cases gs with
  | nil =>
    obtain ⟨-, rfl | ⟨⟨⟩, -⟩⟩ := h.twins.of_nil
    exact ⟨rfl, _, h⟩
  | cons g rest =>
    cases g with
    | leaf =>
      obtain ⟨_, _, _, rfl, -⟩ := h.of_leaf
      exact ⟨rfl, _, h⟩
    | pair k o inner c =>
      obtain ⟨o', inner', c', rest', y, rfl, -, -, hrest⟩ := h.of_pair
      cases k with
      | round | curly => exact ⟨rfl, _, h⟩
      | square =>
        obtain ⟨a, b, hscan⟩ := h.source.holds
        have ho : o.lexeme = .op (.opening .square) := by
          cases hscan.matched _ (List.mem_cons_self ..) with
          | pair ho _ _ => exact ho
        have htouch : o.start = name.stop ↔ o'.start = name'.stop :=
          (h.twins.next_first rfl).meets.touch ⟨text, hn⟩ ho
        rw [typeParams, typeParams]
        by_cases hs : o.start = name.stop
        · rw [if_pos hs, if_pos (htouch.1 hs)]
          exact ⟨rfl, _, hrest⟩
        · rw [if_neg hs, if_neg fun hs' => hs (htouch.2 hs')]
          exact ⟨rfl, _, h⟩

lemma aliasMark_mirrors (h : Faces s s' lost false x gs gs' z) :
    (aliasMark gs').1 = (aliasMark gs).1 ∧
      ∃ y, Faces s s' lost false y (aliasMark gs).2 (aliasMark gs').2 z := by
  cases gs with
  | nil =>
    obtain ⟨-, rfl | ⟨⟨⟩, -⟩⟩ := h.twins.of_nil
    exact ⟨rfl, _, h⟩
  | cons g rest =>
    cases g with
    | pair =>
      obtain ⟨_, _, _, _, _, rfl, -⟩ := h.of_pair
      exact ⟨rfl, _, h⟩
    | leaf t =>
      obtain ⟨t', rest', y, rfl, he, -, hrest⟩ := h.of_leaf
      have hop : t'.isOp .assign = t.isOp .assign := by rw [Token.isOp, Token.isOp, he]
      rw [aliasMark, aliasMark, hop]
      split
      · exact ⟨rfl, _, hrest⟩
      · exact ⟨rfl, _, h⟩

lemma exists_ident {t : Token} {p : Placed} (h : identifier t = .ok p) :
    ∃ text, t.lexeme = .ident text := by
  rw [identifier] at h
  split at h
  · next text hl => exact ⟨text, hl⟩
  · cases h

lemma typeSpec_mirrors (hlaw : ∀ st, (mirrorLaw s s').expr st)
    (h : Faces s s' lost false x gs gs' z) {follow follow' : Token}
    (hf : follow'.lexeme = follow.lexeme) :
    Mirrors (Option.Rel fun p p' : Placed => p.node.Spared lost p'.node) (typeSpec s follow gs)
      (typeSpec s' follow' gs') := by
  cases gs with
  | nil =>
    obtain ⟨-, rfl | ⟨⟨⟩, -⟩⟩ := h.twins.of_nil
    rw [typeSpec, typeSpec]
    exact (@identifier_mirrors lost _ _ hf).bind fun _ _ _ => .ok .none
  | cons g rest =>
    obtain ⟨g', rest', y, rfl, hlike, hg, hrest⟩ := h.of_cons
    rw [typeSpec, typeSpec]
    apply (@identifier_mirrors lost _ _ hlike.first).bind_of_ok
    intro name name' hname _ hn
    obtain ⟨text, hl⟩ := exists_ident hname
    have hword : g.isSemicolon = false := by
      cases g with
      | leaf t => simp [isSemicolon, Token.isSemicolon, show t.lexeme = _ from hl]
      | pair => rfl
    obtain ⟨t, rfl⟩ : ∃ t, g = .leaf t := by
      cases g with
      | leaf t => exact ⟨t, rfl⟩
      | pair k o inner c =>
        obtain ⟨a, b, hscan⟩ := h.source.holds
        cases hscan.matched _ (List.mem_cons_self ..) with
        | pair ho _ _ => cases ho.symm.trans hl
    cases hlike with
    | @leaf _ t' he =>
      obtain rfl := hg.eq_last hword
      rw [TokenGroup.last, TokenGroup.last] at hrest
      obtain ⟨hgeneric, v, hparams⟩ := typeParams_mirrors hl hrest
      obtain ⟨halias, w, hmark⟩ := aliasMark_mirrors hparams
      have hlist := hmark.ofList
      dsimp only [TokenGroup.first]
      rw [hgeneric, halias]
      cases ho : Stretch.ofList? (aliasMark (typeParams t rest).2).2 with
      | none =>
        rw [eq_none_of_rel hlist ho]
        exact .ok .none
      | some st =>
        obtain ⟨st', ho', hst⟩ := exists_of_rel hlist ho
        rw [ho']
        apply (hlaw st hst _).bind
        exact fun type type' htype =>
          .ok (.some (spared_of_children rfl rfl (.cons hn.spared (.cons htype.spared .nil))))

def typeSpecs (s : TokenStream) (follow : Token) (gs : List TokenGroup) : Result (List (Option Placed)) :=
  match gs with
  | .pair .round _ inner c :: _ =>
    (Stretch.split isSemicolon inner).mapM fun st => typeSpec s c st.toList
  | _ => do
    let spec ← typeSpec s follow gs
    pure [spec]

lemma typeDecl_eq (s : TokenStream) (t : Token) (g : TokenGroup) (rest : List TokenGroup) :
    typeDecl s t (g :: rest) = do
      let specs ← typeSpecs s g.first (upTo isSemicolon (g :: rest))
      let shape := Shape.typeDecl ((specs.filterMap id).map Placed.node)
      let node := verbatim s (statementSpan t (g :: rest)) shape
      return ⟨node, since isSemicolon (g :: rest), since_suffix _ _⟩ := by
  cases g with
  | leaf u =>
    have hspecs : typeSpecs s u (upTo isSemicolon (.leaf u :: rest)) = (do
        let spec ← typeSpec s u (upTo isSemicolon (.leaf u :: rest))
        pure [spec]) := by
      rw [typeSpecs]
      rintro o inner c more he
      cases hu : u.isSemicolon <;> simp [upTo, isSemicolon, hu] at he
    rw [TokenGroup.first, hspecs]
    simp only [typeDecl, bind_assoc, pure_bind]
    rfl
  | pair k o inner c =>
    have hup : upTo isSemicolon (.pair k o inner c :: rest) = .pair k o inner c :: upTo isSemicolon rest :=
      rfl
    cases k with
    | round => rfl
    | square | curly =>
      simp only [typeDecl, typeSpecs, hup, bind_assoc, pure_bind]

lemma typeSpecs_mirrors (hlaw : ∀ st, (mirrorLaw s s').expr st)
    (h : Faces s s' lost false x gs gs' z) {follow follow' : Token}
    (hf : follow'.lexeme = follow.lexeme) :
    Mirrors (List.Forall₂ (Option.Rel fun p p' : Placed => p.node.Spared lost p'.node))
      (typeSpecs s follow gs) (typeSpecs s' follow' gs') := by
  have hone : Mirrors (List.Forall₂ (Option.Rel fun p p' : Placed => p.node.Spared lost p'.node))
      (do let spec ← typeSpec s follow gs; pure [spec])
      (do let spec ← typeSpec s' follow' gs'; pure [spec]) :=
    (typeSpec_mirrors hlaw h hf).bind fun _ _ hp => .ok (.cons hp .nil)
  cases gs with
  | nil =>
    obtain ⟨-, rfl | ⟨⟨⟩, -⟩⟩ := h.twins.of_nil
    exact hone
  | cons g rest =>
    cases g with
    | leaf =>
      obtain ⟨_, _, _, rfl, -⟩ := h.of_leaf
      exact hone
    | pair k o inner c =>
      obtain ⟨o', inner', c', rest', y, rfl, hpair, hinner, -⟩ := h.of_pair
      cases k with
      | square | curly => exact hone
      | round =>
        replace hinner : Faces s s' lost false ⟨o, o'⟩ inner inner' y := hinner
        have hc : c'.lexeme = c.lexeme := hpair.twins.like.last
        exact Mirrors.mapM (hinner.split blind_isSemicolon) fun st _ st' _ ⟨_, _, hst⟩ =>
          typeSpec_mirrors hlaw hst hc

lemma isShown_of_typeSpec {follow : Token} {o : Option Placed} (h : typeSpec s follow gs = .ok o) :
    ∀ p ∈ o, p.node.isShown = false := by
  unfold typeSpec at h
  split at h
  · obtain ⟨_, _, h⟩ := Except.bind_eq_ok_iff.1 h
    obtain rfl := Except.pure_eq_ok_iff.1 h
    rintro p ⟨⟩
  · obtain ⟨name, hname, h⟩ := Except.bind_eq_ok_iff.1 h
    dsimp only at h
    split at h
    · obtain rfl := Except.pure_eq_ok_iff.1 h
      rintro p ⟨⟩
    · obtain ⟨type, htype, h⟩ := Except.bind_eq_ok_iff.1 h
      obtain rfl := Except.pure_eq_ok_iff.1 h
      rintro p ⟨⟩
      rfl

lemma isShown_of_typeSpecs {follow : Token} {specs : List (Option Placed)}
    (h : typeSpecs s follow gs = .ok specs) : ∀ o ∈ specs, ∀ p ∈ o, p.node.isShown = false := by
  unfold typeSpecs at h
  split at h
  · exact Except.forall_of_mapM h fun _ _ _ ho => isShown_of_typeSpec ho
  · obtain ⟨spec, hspec, h⟩ := Except.bind_eq_ok_iff.1 h
    obtain rfl := Except.pure_eq_ok_iff.1 h
    exact List.forall_mem_singleton.2 (isShown_of_typeSpec hspec)

lemma typeDecl_mirrors (hlaw : ∀ st, (mirrorLaw s s').expr st)
    (h : Led s s' lost t t' gs gs' z) :
    Mirrors (fun r r' => Takes₂ s s' lost false ⟨t, t'⟩ gs gs' z r.node r'.node r.rest r'.rest)
      (typeDecl s t gs) (typeDecl s' t' gs') := by
  obtain ⟨h, hhas⟩ := h
  cases gs with
  | nil => exact .error
  | cons g rest =>
    obtain ⟨g', rest', y, rfl, hlike, -⟩ := h.of_cons
    obtain ⟨w, hup⟩ := h.cut_semicolon
    rw [typeDecl_eq, typeDecl_eq]
    apply (typeSpecs_mirrors hlaw hup hlike.first).bind_of_ok
    intro specs specs' hspecs hspecs' _
    refine .ok ⟨fun hk => ?_, .since h.twins⟩
    have hhidden : ∀ o ∈ specs, ∀ p ∈ o, p.node.isShown = false := isShown_of_typeSpecs hspecs
    have hsame : List.Forall₂ (Option.Rel fun p p' : Placed => SameShape p.node p'.node) specs specs' := by
      -- what is declared is shown as a whole, so nothing is lost in it
      have hkept (i : Nat) (hi : t.start ≤ i) (hi' : i < (statementSpan t (g :: rest)).stop) : ¬lost i := by
        refine hk.own rfl (by rintro ⟨⟩) _ rfl i hi hi' fun c hc hn => ?_
        obtain ⟨p, hp, rfl⟩ := List.mem_map.1 hc
        obtain ⟨o, ho, hop⟩ := List.mem_filterMap.1 hp
        rw [hhidden o ho p hop] at hn
        cases hn
      obtain ⟨a, b, hscan⟩ := hhas.holds
      rw [statement_led t] at hscan
      have hregion (u : Token) (hu : u ∈ tokens (.leaf t :: upTo isSemicolon (g :: rest))) :
          t.start ≤ u.stop ∧ u.start ≤ (statementSpan t (g :: rest)).stop :=
        covers_of_scanned hscan.left hu
      have hstart : t.start ≤ t.stop := (hscan.chain.mem (t := t) (by simp [Stretch.toList])).2.2
      have hnone := hup.mono hstart (fun u hu => hregion u (by simp [hu])) hkept
      obtain ⟨q, hq, hall⟩ := typeSpecs_mirrors hlaw hnone hlike.first specs hspecs
      obtain rfl : specs' = q := Except.ok.inj (hspecs'.symm.trans hq)
      refine hall.imp fun _ _ ho => ?_
      cases ho with
      | none => exact .none
      | some h => exact .some (h fun _ => id)
    have hpairs := forall₂_filterMap hsame
    refine .mk (form_typeDecl ?_) rfl (List.forall₂_map_left_iff.2 (List.forall₂_map_right_iff.2 hpairs))
    rw [List.length_map, List.length_map, hpairs.length_eq]

/-! ### Functions -/

lemma receiver_mirrors (h : Faces s s' lost false x gs gs' z) :
    (receiver s' gs').1.isSome = (receiver s gs).1.isSome ∧
      Leaves lost s.comments s'.comments false x gs gs' z (receiver s gs).2 (receiver s' gs').2 := by
  cases gs with
  | nil =>
    obtain ⟨-, rfl | ⟨⟨⟩, -⟩⟩ := h.twins.of_nil
    exact ⟨rfl, .refl h.twins⟩
  | cons g rest =>
    cases g with
    | leaf =>
      obtain ⟨_, _, _, rfl, -⟩ := h.of_leaf
      exact ⟨rfl, .refl h.twins⟩
    | pair k =>
      obtain ⟨_, _, _, _, _, rfl, hpair, -, hrest⟩ := h.of_pair
      cases k with
      | square | curly => exact ⟨rfl, .refl h.twins⟩
      | round => exact ⟨rfl, .cons hpair.twins (.refl hrest.twins)⟩

lemma afterTypeParams_mirrors (h : Faces s s' lost false x gs gs' z) :
    Leaves lost s.comments s'.comments false x gs gs' z (afterTypeParams gs) (afterTypeParams gs') := by
  cases gs with
  | nil =>
    obtain ⟨-, rfl | ⟨⟨⟩, -⟩⟩ := h.twins.of_nil
    exact .refl h.twins
  | cons g rest =>
    cases g with
    | leaf =>
      obtain ⟨_, _, _, rfl, -⟩ := h.of_leaf
      exact .refl h.twins
    | pair k =>
      obtain ⟨_, _, _, _, _, rfl, hpair, -, hrest⟩ := h.of_pair
      cases k with
      | round | curly => exact .refl h.twins
      | square => exact .cons hpair.twins (.refl hrest.twins)

lemma funcRest_of_body {recv : Option String} {name : Placed} {o c bo bc l : Token}
    {params inner rest after : List TokenGroup}
    (h : Parser.signatureEnd c rest = (l, .pair .curly bo inner bc :: after)) :
    ∃ hs, funcRest s t recv name (.pair .round o params c :: rest) = do
      let type ← funcType s o params c
      let body ← block s bo inner bc
      let span := Span.ofTokens t bc
      let signature := Text.trimEnd Text.isSpace (s.source.slice t.start bo.start)
      let node : Placed :=
        { span := span, shape := .funcDecl name.node type.node signature recv (some body.node)
          pieces := s.source.pieces span 1 [body] }
      return ⟨node, after, hs⟩ := by
  have hs := (List.suffix_cons (.pair .curly bo inner bc) after).trans
    ((suffix_of_signatureEnd h).trans (List.suffix_cons (.pair .round o params c) rest))
  refine ⟨hs, ?_⟩
  rw [funcRest]
  congr 1
  funext type
  split
  · next h' =>
    rw [h] at h'
    cases h'
    rfl
  · next hno h' =>
    rw [h] at h'
    cases h'
    exact (hno _ _ _ _ rfl).elim

lemma funcRest_of_none {recv : Option String} {name : Placed} {o c : Token}
    {params rest : List TokenGroup}
    (h : ∀ bo inner bc after, (Parser.signatureEnd c rest).2 ≠ .pair .curly bo inner bc :: after) :
    ∃ hs, funcRest s t recv name (.pair .round o params c :: rest) = do
      let type ← funcType s o params c
      let span := Span.ofTokens t (Parser.signatureEnd c rest).1
      let text := s.source.slice span.start span.stop
      let node := verbatim s span (.funcDecl name.node type.node text recv none)
      return ⟨node, (Parser.signatureEnd c rest).2, hs⟩ := by
  have hs := (signatureEnd_suffix c rest).trans (List.suffix_cons (.pair .round o params c) rest)
  refine ⟨hs, ?_⟩
  rw [funcRest]
  congr 1
  funext type
  split
  · next h' => exact absurd (congrArg Prod.snd h') (h _ _ _ _)
  · next last stop _ h' => simp only [h']

lemma form_funcDecl {a b type type' : Node} {recv recv' : Option String} {text text' : String}
    {body body' : Option Node} (h : b.shape = a.shape) (hr : recv'.isSome = recv.isSome)
    (hb : body'.isSome = body.isSome) :
    (Shape.funcDecl b type' text' recv' body').form = (Shape.funcDecl a type text recv body).form := by
  cases recv <;> cases recv' <;> cases body <;> cases body' <;>
    simp_all [Shape.form, Shape.label, Shape.mapChildren]

lemma funcRest_mirrors (L : ∀ k, (mirrorLaw s s').Below k) {pre : List TokenGroup}
    {recv recv' : Option String} {name name' : Placed} (h : Faces s s' lost false x gs gs' z)
    (hhas : s.Has (.leaf t :: (pre ++ gs))) (hrecv : recv'.isSome = recv.isSome)
    (hname : name'.shape = name.shape) :
    Mirrors (fun r r' => Takes₂ s s' lost false x gs gs' z r.node r'.node r.rest r'.rest)
      (funcRest s t recv name gs) (funcRest s' t' recv' name' gs') := by
  cases gs with
  | nil => exact .error
  | cons g rest =>
    cases g with
    | leaf => exact .error
    | pair k o params c =>
      cases k with
      | square | curly => exact .error
      | round =>
        obtain ⟨o', params', c', rest', w, rfl, hpair, hparams, hmore⟩ := h.of_pair
        replace hparams : Faces s s' lost false ⟨o, o'⟩ params params' w := hparams
        have hlast : c'.lexeme = c.lexeme := hpair.twins.like.last
        obtain ⟨-, hsig⟩ := hmore.twins.signatureEnd hlast
        obtain ⟨v, hend, hfurther⟩ := hmore.leaves hsig
        have htype := hparams.funcType ((L _).funcType params (Nat.lt_succ_self _)) o c o' c'
        obtain ⟨a, b, hscan⟩ := hhas.holds
        by_cases hb : ∃ bo inner bc after, (signatureEnd c rest).2 = .pair .curly bo inner bc :: after
        · obtain ⟨bo, inner, bc, after, hse⟩ := hb
          rw [hse] at hend hfurther
          obtain ⟨bo', inner', bc', after', u, hse', hbody, -, hafter⟩ := hend.of_pair
          rw [hse'] at hfurther
          obtain ⟨_, he⟩ := @funcRest_of_body s t recv name o c bo bc _ params inner rest after
            (Prod.ext rfl hse)
          obtain ⟨_, he'⟩ := @funcRest_of_body s' t' recv' name' o' c' bo' bc' _ params' inner' rest'
            after' (Prod.ext rfl hse')
          rw [he, he']
          apply htype.bind_of_ok
          intro type type' htype _ hsame
          apply ((L _).block inner (Nat.lt_succ_self _) hbody).bind_of_ok
          intro body body' hb _ hcopied
          refine .ok ⟨fun hk => ?_, .cons hpair.twins
            (hfurther (.cons hbody.twins (.refl hafter.twins)))⟩
          have hse : signatureEnd c rest = ((signatureEnd c rest).1, .pair .curly bo inner bc :: after) :=
            Prod.ext rfl hse
          obtain ⟨sig, hrest, -⟩ := of_signatureEnd hse
          rw [hrest] at hscan
          obtain ⟨hbrace, hregion⟩ := before_body hscan
          have hchildren := hk.children rfl (by rintro ⟨⟩)
          refine .mk (form_funcDecl hname hrecv rfl) rfl (.cons (hsame t.start bo.start ?_ ?_ ?_)
            (.cons (hcopied (hchildren _ (.tail _ (.head _)))) .nil))
          · exact (hregion o (by simp)).1
          · exact fun u hu => hregion u (by simp [hu])
          · intro i hi hi'
            refine hk.own rfl (by rintro ⟨⟩) _ rfl i hi (hi'.trans_le hbrace) fun d hd hn span hspan => ?_
            rcases List.mem_cons.1 hd with rfl | hd
            · rw [isShown_of_funcType htype] at hn
              cases hn
            · obtain rfl := List.mem_singleton.1 hd
              obtain rfl : body.span = span := Option.some.inj hspan
              rw [span_of_block hb]
              exact fun h => absurd h.1 (Nat.not_le.2 hi')
        · have hno (bo : Token) (inner : List TokenGroup) (bc : Token) (after : List TokenGroup) :
              (signatureEnd c rest).2 ≠ .pair .curly bo inner bc :: after :=
            fun he => hb ⟨_, _, _, _, he⟩
          obtain ⟨_, he⟩ := @funcRest_of_none s t recv name o c params rest hno
          obtain ⟨_, he'⟩ := @funcRest_of_none s' t' recv' name' o' c' params' rest' (hend.not_body hno)
          rw [he, he']
          apply htype.bind_of_ok
          intro type type' htype _ hsame
          refine .ok ⟨fun hk => ?_, hsig.cons hpair.twins⟩
          obtain ⟨sig, hrest, hlast⟩ := of_signatureEnd (rfl : signatureEnd c rest = (_, _))
          let st : Stretch := ⟨.leaf t, pre ++ .pair .round o params c :: sig⟩
          have hst : .leaf t :: (pre ++ .pair .round o params c :: rest) =
              st.toList ++ (signatureEnd c rest).2 := by
            conv_lhs => rw [hrest]
            simp [st, Stretch.toList]
          have hstop : st.last = (signatureEnd c rest).1 := by
            rw [st.last_eq_getLastD t, hlast, Stretch.toList, ← List.cons_append, tokens_append,
              List.getLastD_append_right, getLastD_cons]
            rfl
          rw [hst] at hscan
          have hregion (u : Token) (hu : u ∈ o :: tokens params) :
              t.start ≤ u.stop ∧ u.start ≤ (signatureEnd c rest).1.stop := by
            rw [← hstop]
            exact covers_of_scanned hscan.left (by simp [st, Stretch.toList] at hu ⊢; tauto)
          refine .mk (form_funcDecl hname hrecv rfl) rfl
            (.cons (hsame t.start (signatureEnd c rest).1.stop ?_ ?_ ?_) .nil)
          · exact (hregion o (by simp)).1
          · exact fun u hu => hregion u (by simp [hu])
          · intro i hi hi'
            refine hk.own rfl (by rintro ⟨⟩) _ rfl i hi hi' fun d hd hn => ?_
            obtain rfl := List.mem_singleton.1 hd
            rw [isShown_of_funcType htype] at hn
            cases hn

lemma funcDecl_of_receiver {recv : Option String} {g n : TokenGroup} {rest more : List TokenGroup}
    (h : receiver s (g :: rest) = (recv, n :: more)) : ∃ hm, funcDecl s t (g :: rest) = do
      let name ← identifier n.first
      if more.isEmpty then failAtEnd s .endOfFile
      else
        let step ← funcRest s t recv name (afterTypeParams more)
        return step.mono hm := by
  have hm : n :: more <:+ g :: rest := by
    have := receiver_suffix s (g :: rest)
    rwa [h] at this
  refine ⟨(afterTypeParams_suffix more).trans ((List.suffix_cons _ _).trans hm), ?_⟩
  rw [funcDecl]
  split
  · next h' =>
    rw [h] at h'
    cases h'
  · next h' =>
    rw [h] at h'
    cases h'
    rfl

lemma funcDecl_of_nil {recv : Option String} {g : TokenGroup} {rest : List TokenGroup}
    (h : receiver s (g :: rest) = (recv, [])) :
    funcDecl s t (g :: rest) = failAtEnd s .endOfFile := by
  rw [funcDecl]
  split
  · rfl
  · next h' =>
    rw [h] at h'
    cases h'

lemma funcDecl_mirrors (L : ∀ k, (mirrorLaw s s').Below k)
    (h : Led s s' lost t t' gs gs' z) :
    Mirrors (fun r r' => Takes₂ s s' lost false ⟨t, t'⟩ gs gs' z r.node r'.node r.rest r'.rest)
      (funcDecl s t gs) (funcDecl s' t' gs') := by
  obtain ⟨h, hhas⟩ := h
  cases gs with
  | nil => exact .error
  | cons g rest =>
    obtain ⟨g', rest', y, rfl, -⟩ := h.of_cons
    obtain ⟨hrecv, hleaves⟩ := receiver_mirrors h
    obtain ⟨w, hafter, hfurther⟩ := h.leaves hleaves
    have hsuffix := receiver_suffix s (g :: rest)
    cases hr : receiver s (g :: rest) with
    | mk recv after =>
      cases hr' : receiver s' (g' :: rest') with
      | mk recv' after' =>
        rw [hr, hr'] at hrecv hafter hfurther
        rw [hr] at hsuffix
        dsimp only at hrecv hafter hfurther hsuffix
        cases after with
        | nil =>
          rw [funcDecl_of_nil hr]
          exact .error
        | cons n more =>
          obtain ⟨n', more', v, rfl, hlike, hn, hmore⟩ := hafter.of_cons
          obtain ⟨_, he⟩ := @funcDecl_of_receiver s t _ _ _ _ _ hr
          obtain ⟨_, he'⟩ := @funcDecl_of_receiver s' t' _ _ _ _ _ hr'
          rw [he, he']
          apply (identifier_shape hlike.first).bind
          intro name name' hname
          rw [isEmpty_of_length_eq hmore.twins.length_eq]
          split
          · exact .error
          · obtain ⟨u, hrest, hfurther'⟩ := hmore.leaves (afterTypeParams_mirrors hmore)
            obtain ⟨pre, hpre⟩ := (afterTypeParams_suffix more).trans
              ((List.suffix_cons n more).trans hsuffix)
            rw [← hpre] at hhas
            apply (funcRest_mirrors L hrest hhas hrecv hname).bind
            exact fun r r' hr => .ok ⟨hr.node, hfurther (.cons hn (hfurther' hr.leaves))⟩

/-! ### Files -/

lemma decl_mirrors (L : ∀ k, (mirrorLaw s s').Below k) (he : t'.lexeme = t.lexeme)
    (h : Led s s' lost t t' gs gs' z) :
    Mirrors (fun r r' => Takes₂ s s' lost false ⟨t, t'⟩ gs gs' z r.node r'.node r.rest r'.rest)
      (decl s t gs) (decl s' t' gs') := by
  have hraw (gs : List TokenGroup) : (mirrorLaw s s').rawNodes gs :=
    (L _).rawNodes gs (Nat.lt_succ_self _)
  unfold decl
  rw [he]
  split
  · exact importDecl_mirrors h
  · exact funcDecl_mirrors L h
  · exact typeDecl_mirrors (fun st => (L _).expr st (Nat.lt_succ_self _)) h
  · exact genDecl_mirrors hraw h
  · exact genDecl_mirrors hraw h
  · exact .fail

lemma decls_mirrors (L : ∀ k, (mirrorLaw s s').Below k) (h : Faces s s' lost false x gs gs' z) :
    Mirrors (CopiedAll lost) (decls s gs) (decls s' gs') := by
  induction hl : gs.length using Nat.strongRecOn generalizing x gs gs' with
  | ind n ih =>
    subst hl
    cases gs with
    | nil =>
      obtain ⟨-, rfl | ⟨⟨⟩, -⟩⟩ := h.twins.of_nil
      rw [decls, decls]
      exact .ok .nil
    | cons g rest =>
      cases hg : g.isSemicolon with
      | true =>
        obtain ⟨g', rest', rfl, hg', -, hrest⟩ := h.of_semicolon hg
        rw [decls, decls, if_pos hg, if_pos hg']
        exact ih _ (by simp) hrest rfl
      | false =>
        obtain ⟨g', rest', y, rfl, hlike, hgs, hrest⟩ := h.of_cons
        have hg' : g'.isSemicolon = false := (blind_isSemicolon _ _ hlike).trans hg
        obtain rfl := hgs.eq_last hg
        rw [decls, decls, if_neg (by simp [hg]), if_neg (by simp [hg'])]
        cases hlike with
        | @pair k o _ c _ inner _ =>
          -- no declaration starts with a bracket
          have ho : o.lexeme = .op (.opening k) := by
            obtain ⟨a, b, hscan⟩ := h.source.holds
            cases hscan.matched _ (List.mem_cons_self ..) with
            | pair ho _ _ => exact ho
          have hfail : decl s o rest = fail (.notTopLevel o.text) o := by
            unfold decl
            rw [ho]
          rw [TokenGroup.first, hfail]
          exact .error
        | @leaf t t' he =>
          apply (decl_mirrors L he ⟨hrest, h.source⟩).bind
          intro step step' hstep
          obtain ⟨w, hmore, -⟩ := hrest.leaves hstep.leaves
          have hlt : step.rest.length < (TokenGroup.leaf t :: rest).length :=
            Nat.lt_succ_of_le step.rest_suffix.length_le
          apply (ih _ hlt hmore rfl).bind
          exact fun ps ps' hps => .ok (.cons hstep.node hps)

lemma shapes_importSpecs (p : Placed) : (importSpecs p).map Node.shape =
    match p.shape.form with
    | .importDecl specs => specs.map Node.shape
    | _ => [] := by
  rw [importSpecs]
  cases p.shape <;>
    simp [Shape.form, Shape.label, Shape.mapChildren, Function.comp_def, Node.shape, Node.bare]

lemma shapes_imports {ps ps' : List Placed}
    (h : List.Forall₂ (fun p p' : Placed => SameShape p.node p'.node) ps ps') :
    (ps'.flatMap importSpecs).map Node.shape = (ps.flatMap importSpecs).map Node.shape := by
  induction h with
  | nil => rfl
  | @cons p p' _ _ hp _ ih =>
    cases hp with
    | mk hf _ _ =>
      replace hf : p'.shape.form = p.shape.form := hf
      rw [List.flatMap_cons, List.flatMap_cons, List.map_append, List.map_append, ih,
        shapes_importSpecs, shapes_importSpecs, hf]

lemma form_file {path package : String} {is js ds es : List Node}
    (hi : js.map Node.shape = is.map Node.shape) (h : es.length = ds.length) :
    (Shape.file path package js es).form = (Shape.file path package is ds).form := by
  have hbare : js.map (fun n => Node.bare n.shape) = is.map fun n => Node.bare n.shape := by
    have hall := congrArg (List.map Node.bare) hi
    rwa [List.map_map, List.map_map] at hall
  simp [Shape.form, Shape.label, Shape.mapChildren, mapIdx_const, hbare, h]

lemma file_copied (hpath : s'.source.path = s.source.path) {package : String} {ps ps' : List Placed}
    (h : CopiedAll lost ps ps') : (file s package ps).node.Copied lost (file s' package ps').node := by
  intro hk
  have hchildren := hk.children rfl (by rintro ⟨⟩)
  have hsame : List.Forall₂ (fun p p' : Placed => SameShape p.node p'.node) ps ps' := by
    replace hchildren : ∀ p ∈ ps, p.node.Keeps lost := fun p hp =>
      hchildren _ (List.mem_map_of_mem hp)
    clear hk
    induction h with
    | nil => exact .nil
    | cons hp _ ih =>
      obtain ⟨hkeeps, hrest⟩ := List.forall_mem_cons.1 hchildren
      exact .cons (hp hkeeps) (ih hrest)
  refine .mk ?_ rfl (List.forall₂_map_left_iff.2 (List.forall₂_map_right_iff.2 hsame))
  show (Shape.file s'.source.path _ _ _).form = _
  rw [hpath]
  exact form_file (shapes_imports hsame) h.length_nodes

theorem stream_mirrors (L : ∀ k, (mirrorLaw s s').Below k) (hpath : s'.source.path = s.source.path)
    (h : Faces s s' lost false x s.groups s'.groups z) :
    Mirrors (fun p p' => p.node.Copied lost p'.node) (stream s) (stream s') := by
  unfold stream
  generalize s.groups = gs at h
  generalize s'.groups = gs' at h
  cases gs with
  | nil => exact .error
  | cons g rest =>
    cases g with
    | pair => exact .error
    | leaf t =>
      obtain ⟨t', rest', y, rfl, he, -, hrest⟩ := h.of_leaf
      have hkey : t'.isKeyword .kwPackage = t.isKeyword .kwPackage := by
        rw [Token.isKeyword, Token.isKeyword, he]
      dsimp only
      rw [hkey]
      split
      · cases rest with
        | nil => exact .error
        | cons g rest =>
          obtain ⟨g', rest', w, rfl, hlike, -, hmore⟩ := hrest.of_cons
          apply (identifier_shape hlike.first).bind
          intro package package' hpackage
          apply (decls_mirrors L hmore).bind
          intro ps ps' hps
          have hname : package'.node.name = package.node.name := by
            have hshape : package'.node.shape = package.node.shape := hpackage
            rw [Node.name, Node.name, Node.ident?, Node.ident?, hshape]
          rw [hname]
          exact .ok (file_copied hpath hps)
      · exact .fail

end ParallelTests.Parser
