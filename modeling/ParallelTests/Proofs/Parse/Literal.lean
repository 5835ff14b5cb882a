import ParallelTests.Proofs.Parse.Expr
import ParallelTests.Proofs.Parse.Rules

namespace ParallelTests.Parser

open Scan TokenGroup

variable {s : TokenStream} {gs inner : List TokenGroup}

lemma isSilent_funcType {p : Placed} (h : p.shape.kind = .funcType) : p.node.kind.isSilent = true := by
  rw [Node.kind, Placed.node, Node.shape, h]
  rfl

lemma isSemicolon_of_isKeyword {t : Token} {k : Keyword} (h : t.isKeyword k = true) :
    t.isSemicolon = false := by
  have hl : t.lexeme = .keyword k := by simpa [Token.isKeyword] using h
  simp [Token.isSemicolon, hl]

lemma not_automatic_of_pair {k : Bracket} {o c : Token} {src : List Char} {a b : Nat}
    (h : Scanned src a [.pair k o inner c] b) : o.isAutomatic = false :=
  (h.matched _ (List.mem_singleton_self _)).not_automatic rfl

lemma rising_typed {type : Node} {body : Placed} {a b m : Nat} (ht : Rising a type.starts m)
    (hb : Rowed s.source.chars m [body] b) (ha : a ≤ m) :
    Rising a ([type].flatMap Node.starts ++ startsIn [body]) b := by
  rw [List.flatMap_singleton]
  exact ht.append hb.rising (Nat.le_refl m) ha hb.le

lemma funcLit_spec (ih : Specs s (8 * size gs)) : FuncLitSpec s gs := by
  intro t step a b hs ht h
  rw [funcLit.eq_def] at h
  split at h
  · next o params c rest =>
    split at h
    · next bo inner bc after hsig =>
      obtain ⟨type, htype, h⟩ := Except.bind_eq_ok_iff.1 h
      obtain ⟨body, hbody, h⟩ := Except.bind_eq_ok_iff.1 h
      obtain rfl := Option.some.inj (Except.pure_eq_ok_iff.1 h)
      obtain ⟨sig, rfl, _⟩ := of_signatureEnd hsig
      have hsize := size_append sig (.pair .curly bo inner bc :: after)
      simp only [size_cons, weight_pair] at hsize
      have htype' {a b : Nat} (h : Scanned s.source.chars a params b) :=
        ih.funcType (by simp; omega) h htype
      obtain ⟨hft, hkt, -⟩ := htype' hs.tail.within
      have hbs {a b : Nat} (h : Scanned s.source.chars a [.pair .curly bo inner bc] b) :=
        ih.block (by simp; omega) h hbody
      have hbrace := (Scanned.around (_ :: _ :: sig) ⟨.pair .curly bo inner bc, []⟩ hs).2.1
      obtain ⟨hread, hkb⟩ := hbs hbrace
      have hauto : bo.isAutomatic = false := not_automatic_of_pair hbrace
      have hrise {a b : Nat} (h : Scanned s.source.chars a
          (.pair .round o params c :: sig ++ [.pair .curly bo inner bc]) b) :
          Rising a ([type.node].flatMap Node.starts ++ startsIn [body]) b := by
        obtain ⟨m, h₁, h₂⟩ := h.split
        exact rising_typed (htype' h₁.within).2.2 (hread.rowed h₂ hauto) h₁.le
      obtain ⟨st, hst, hr, _⟩ := takes_led (.pair .round o params c :: sig)
        ⟨.pair .curly bo inner bc, []⟩ [body] [type.node]
        (.funcLit (Text.trimEnd Text.isSpace (s.source.slice t.start bo.start)) type.node
          body.node) hs ht rfl rfl (fun h => ⟨hread.rowed h.right hauto, hrise h⟩) rfl rfl ⟨hkt, hkb⟩
        (List.forall_mem_singleton.2 ⟨hft, isSilent_funcType hkt⟩)
      exact ⟨⟨st, hst, hr⟩, rfl⟩
    · simp [pure, Except.pure] at h
  · simp [pure, Except.pure] at h

lemma rawNodes_spec (ih : Specs s (8 * size gs)) : RawNodesSpec s gs := by
  intro after ps a b hs h
  rw [rawNodes.eq_def] at h
  split at h
  · obtain rfl := Except.pure_eq_ok_iff.1 h
    exact ⟨hs.nil, by simp⟩
  · next t rest =>
    split at h
    · next hkw =>
      obtain ⟨o, ho, h⟩ := Except.bind_eq_ok_iff.1 h
      split at h
      · next step =>
        obtain ⟨qs, hqs, h⟩ := Except.bind_eq_ok_iff.1 h
        obtain rfl := Except.pure_eq_ok_iff.1 h
        have ht : t.isSemicolon = false := isSemicolon_of_isKeyword (Bool.and_eq_true_iff.1 hkw).1
        obtain ⟨⟨st, hst, hread⟩, hk⟩ := ih.funcLit (by simp) hs ht ho
        have hsize := size_le_of_suffix step.rest_suffix
        have hauto : st.first.isAutomatic = false :=
          Stretch.first_of_cons hst ▸ Token.isAutomatic_of_isSemicolon ht
        rw [hst] at hs
        obtain ⟨m, h₁, h₂⟩ := hs.split
        obtain ⟨hr, hks⟩ := ih.rawNodes (by simp; omega) h₂ hqs
        exact ⟨(hread.rowed h₁ hauto).append hr, List.forall_mem_cons.2 ⟨hk, hks⟩⟩
      · exact ih.rawNodes (by simp) hs.tail h
    · exact ih.rawNodes (by simp) hs.tail h
  · next k o inner c rest =>
    obtain ⟨here, hh, h⟩ := Except.bind_eq_ok_iff.1 h
    obtain ⟨qs, hqs, h⟩ := Except.bind_eq_ok_iff.1 h
    obtain rfl := Except.pure_eq_ok_iff.1 h
    obtain ⟨m, h₁, h₂⟩ := hs.split_head
    obtain ⟨hr, hk⟩ := ih.rawNodes (by simp; omega) h₁.within hh
    obtain ⟨hr', hk'⟩ := ih.rawNodes (by simp) h₂ hqs
    exact ⟨hr.append hr', List.forall_mem_append.2 ⟨hk, hk'⟩⟩

def Param.Proper (src : List Char) : Param → Prop
  | .name ident => Woven src ident.node ∧ ident.shape.kind = .ident
  | .typed _ ident type =>
    (Woven src ident.node ∧ ident.shape.kind = .ident) ∧ Woven src type.node ∧
      type.shape.kind.isExpr = true

lemma woven_of_fields {src : List Char} {pending done left : List Placed} {params : List Param}
    (hp : ∀ p ∈ pending, Woven src p.node ∧ p.shape.kind = .ident)
    (hs : ∀ p ∈ params, p.Proper src) (h : fields pending params = (done, left)) :
    ∀ p ∈ done, Woven src p.node ∧ p.shape.kind = .field := by
  induction pending, params using fields.induct generalizing done left with
  | case1 pending =>
    obtain ⟨rfl, _⟩ := Prod.mk.inj h
    simp
  | case2 pending ident ps ih =>
    obtain ⟨hi, hs⟩ := List.forall_mem_cons.1 hs
    exact ih (List.forall_mem_append.2 ⟨hp, List.forall_mem_singleton.2 hi⟩) hs h
  | case3 pending span ident type ps =>
    rename_i ih
    obtain ⟨⟨hi, hf, hk⟩, hs⟩ := List.forall_mem_cons.1 hs
    have hnames : ∀ p ∈ pending ++ [ident], Woven src p.node ∧ p.shape.kind = .ident :=
      List.forall_mem_append.2 ⟨hp, by simpa using hi⟩
    rw [fields] at h
    obtain ⟨rfl, _⟩ := Prod.mk.inj h
    refine List.forall_mem_cons.2
      ⟨⟨.bare ⟨List.forall_mem_map.2 fun p hp => (hnames p hp).2, hk⟩ rfl ?_, rfl⟩,
        ih (by simp) hs rfl⟩
    refine List.forall_mem_append.2 ⟨List.forall_mem_map.2 fun p hp => (hnames p hp).1, by simpa using hf⟩

lemma starts_of_ident {p : Placed} (h : p.shape.kind = .ident) : p.node.starts = [] := by
  rw [Placed.starts_node, Placed.inner, h]
  cases hs : p.shape <;> simp_all [Shape.kind, Shape.children, Kind.isStmt]

def Param.starts : Param → List Nat
  | .name _ => []
  | .typed _ _ type => type.node.starts

lemma starts_of_fields {src : List Char} {pending done left : List Placed} {params : List Param}
    (hp : ∀ p ∈ pending, p.shape.kind = .ident) (hs : ∀ p ∈ params, p.Proper src)
    (h : fields pending params = (done, left)) : startsIn done = params.flatMap Param.starts := by
  induction pending, params using fields.induct generalizing done left with
  | case1 pending =>
    obtain ⟨rfl, _⟩ := Prod.mk.inj h
    rfl
  | case2 pending ident ps ih =>
    obtain ⟨hi, hs⟩ := List.forall_mem_cons.1 hs
    exact ih (List.forall_mem_append.2 ⟨hp, List.forall_mem_singleton.2 hi.2⟩) hs h
  | case3 pending span ident type ps =>
    rename_i ih
    obtain ⟨⟨hi, _, _⟩, hs⟩ := List.forall_mem_cons.1 hs
    rw [fields] at h
    obtain ⟨rfl, _⟩ := Prod.mk.inj h
    have hnames : startsIn (pending ++ [ident]) = [] := by
      rw [startsIn, List.flatMap_eq_nil_iff]
      exact List.forall_mem_append.2 ⟨fun p hmem => starts_of_ident (hp p hmem),
        List.forall_mem_singleton.2 (starts_of_ident hi.2)⟩
    rw [startsIn, List.flatMap_cons, List.flatMap_cons, ← startsIn, ih (by simp) hs rfl,
      Placed.starts_node, Placed.inner, Shape.children, List.flatMap_append, flatMap_starts, hnames]
    simp [Shape.kind, Kind.isStmt, Param.starts]

lemma woven_funcType {src : List Char} {ps : List Placed} {span : Span}
    (h : ∀ p ∈ ps, Woven src p.node ∧ p.shape.kind = .field) :
    Woven src (Placed.node { span := span, shape := .funcType (ps.map Placed.node) }) :=
  .bare (List.forall_mem_map.2 fun p hp => (h p hp).2) rfl
    (List.forall_mem_map.2 fun p hp => (h p hp).1)

lemma starts_funcType {ps : List Placed} {span : Span} :
    (Placed.node { span := span, shape := .funcType (ps.map Placed.node) }).starts = startsIn ps := by
  rw [Placed.starts_node, Placed.inner, Shape.children, flatMap_starts]
  rfl

lemma of_paramName? {st type : Stretch} {t : Token} {name : String}
    (h : paramName? st = some (t, name, type)) :
    st.toList = .leaf t :: type.toList ∧ t.lexeme = .ident name := by
  obtain ⟨g, gs⟩ := st
  unfold paramName? at h
  split at h
  · next t' g' gs' hh ht =>
    split at h
    · next name' hl =>
      split at h
      · simp at h
      · obtain ⟨rfl, rfl, rfl⟩ := by simpa only [Option.some.injEq, Prod.mk.injEq] using h
        obtain rfl : g = .leaf _ := hh
        obtain rfl : gs = g' :: gs' := ht
        exact ⟨rfl, hl⟩
    · simp at h
  · simp at h

lemma of_singleIdent? {st : Stretch} {p : Placed} (h : singleIdent? st = some p) :
    ∃ t name, st.toList = [.leaf t] ∧ t.lexeme = .ident name ∧ p = .ident t name := by
  obtain ⟨g, gs⟩ := st
  unfold singleIdent? at h
  split at h
  · next t hh ht =>
    split at h
    · next name hl =>
      obtain rfl : g = .leaf t := hh
      obtain rfl : gs = [] := ht
      exact ⟨t, name, rfl, hl, (Option.some.inj h).symm⟩
    · simp at h
  · simp at h

lemma param_spec {p : Param} {st : Stretch} {a b : Nat}
    (ih : ∀ type : Stretch, type.size < st.size → ExprSpec s type)
    (hs : Scanned s.source.chars a st.toList b) (h : readParam s st = .ok p) :
    p.Proper s.source.chars ∧ Rising a p.starts b := by
  unfold readParam at h
  split at h
  · next t name type hn =>
    obtain ⟨type', htype, h⟩ := Except.bind_eq_ok_iff.1 h
    obtain rfl := Except.pure_eq_ok_iff.1 h
    obtain ⟨heq, hl⟩ := of_paramName? hn
    rw [heq] at hs
    obtain ⟨hr, hk⟩ := ih type (size_lt_of_paramName? hn) hs.tail htype
    exact ⟨⟨⟨(reads_ident hs.head hl).woven, rfl⟩, hr.woven, hk⟩, hr.rising hs.tail⟩
  · split at h
    · next ident hi =>
      obtain rfl := Except.pure_eq_ok_iff.1 h
      obtain ⟨t, name, heq, hl, rfl⟩ := of_singleIdent? hi
      rw [heq] at hs
      exact ⟨⟨(reads_ident hs hl).woven, rfl⟩, .nil a b⟩
    · simp [fail] at h

lemma paramType_spec {p : Placed} {st : Stretch} {a b : Nat} (ih : ExprSpec s st)
    (hs : Scanned s.source.chars a st.toList b) (h : readParamType s st = .ok p) :
    (Woven s.source.chars p.node ∧ p.shape.kind = .field) ∧ Rising a p.node.starts b := by
  obtain ⟨type, htype, h⟩ := Except.bind_eq_ok_iff.1 h
  obtain rfl := Except.pure_eq_ok_iff.1 h
  obtain ⟨hr, hk⟩ := ih hs htype
  refine ⟨⟨.bare ⟨by simp, hk⟩ rfl (List.forall_mem_singleton.2 hr.woven), rfl⟩, ?_⟩
  rw [Placed.starts_node]
  simpa [Placed.inner, Shape.children, Shape.kind, Kind.isStmt] using hr.rising hs

lemma funcType_spec (ih : Specs s (8 * size inner + 2)) : FuncTypeSpec s inner := by
  intro o c p a b hs h
  have hexpr {st type : Stretch} (hx : st ∈ Stretch.split (TokenGroup.isOp .comma) inner)
      (ht : type.size ≤ st.size) : ExprSpec s type := by
    have hle := Stretch.size_le_of_mem_split hx
    exact @ih.expr type (by omega)
  rw [funcType_eq] at h
  dsimp only at h
  split at h
  · obtain ⟨params, hparams, h⟩ := Except.bind_eq_ok_iff.1 h
    have hparam (st : Stretch) (hx : st ∈ Stretch.split (TokenGroup.isOp .comma) inner) (p : Param)
        (a b : Nat) (hst : Scanned s.source.chars a st.toList b) (hp : readParam s st = .ok p) :
        p.Proper s.source.chars ∧ Rising a p.starts b :=
      param_spec (fun type hlt => hexpr hx hlt.le) hst hp
    have hproper : ∀ p ∈ params, p.Proper s.source.chars :=
      Except.forall_of_mapM hparams fun st hx p hp => (hparam st hx p a b (hs.of_mem_split hx) hp).1
    split at h
    · obtain rfl := Except.pure_eq_ok_iff.1 h
      refine ⟨woven_funcType (woven_of_fields (by simp) hproper rfl), rfl, ?_⟩
      rw [starts_funcType, starts_of_fields (by simp) hproper rfl]
      have hread := (List.forall₂_and_left _ _).2 ⟨fun _ hx => hx, Except.forall₂_of_mapM hparams⟩
      exact hs.rising_split (hread.imp fun st p h a b hst => (hparam st h.1 p a b hst h.2).2)
    · simp [fail] at h
  · obtain ⟨params, hparams, h⟩ := Except.bind_eq_ok_iff.1 h
    obtain rfl := Except.pure_eq_ok_iff.1 h
    refine ⟨woven_funcType (Except.forall_of_mapM hparams fun st hx p hp =>
      (paramType_spec (hexpr hx le_rfl) (hs.of_mem_split hx) hp).1), rfl, ?_⟩
    rw [starts_funcType]
    have hread := (List.forall₂_and_left _ _).2 ⟨fun _ hx => hx, Except.forall₂_of_mapM hparams⟩
    exact hs.rising_split (hread.imp fun st p h a b hst => (paramType_spec (hexpr h.1 le_rfl) hst h.2).2)

end ParallelTests.Parser
