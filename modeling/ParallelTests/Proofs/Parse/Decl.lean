import ParallelTests.Proofs.Parse.Grammar

namespace ParallelTests

def Shape.functionName? : Shape → Option Node
  | .funcDecl name _ _ _ _ => some name
  | _ => none

namespace Parser

open Scan TokenGroup

variable {s : TokenStream} {line : Nat} {st : Stretch} {gs : List TokenGroup} {a b : Nat}

structure IsDeclared (src : List Char) (shape : Shape) : Prop where
  isDecl : shape.kind.isDecl = true
  name : ∀ n ∈ shape.functionName?, Woven src n

lemma IsDeclared.unnamed {src : List Char} {shape : Shape} (h : shape.kind.isDecl = true)
    (hn : shape.functionName? = none) : IsDeclared src shape :=
  ⟨h, by simp [hn]⟩

lemma reads_verbatim {shape : Shape} {span : Span} (hs : Scanned s.source.chars a st.toList b)
    (hspan : span = st.span) (hk : shape.kind.isWoven = true) (hp : shape.Proper IsIdentifier)
    (hf : ∀ n ∈ shape.children, Woven s.source.chars n ∧ n.kind.isSilent = true)
    (hd : shape.kind.isStmt = false)
    (ho : Rising (st.first.start + 1) (shape.children.flatMap Node.starts) st.last.stop) :
    Reads s.source.chars (verbatim s span shape) st := by
  subst hspan
  have ht := hs.trim.1
  obtain ⟨ms, hr⟩ := ht.sync_left.to ht.sync_right ht.le
  have hweaves : Node.IsWoven s.source.chars (verbatim s st.span shape).node := by
    rintro _ ⟨⟩
    exact ⟨st.span, rfl, .text ht.le .nil⟩
  exact ⟨rfl, rfl, .woven (Kind.ne_block_of_isWoven hk)
      (.text ht.sync_left hr (fun _ _ _ => rfl) (.done ht.sync_right.le_length)),
    .mk hp ⟨hk, .text fun n hn => (hf n hn).2⟩ hweaves fun n hn => (hf n hn).1,
    fun h => absurd (hd.symm.trans h) Bool.false_ne_true, ho⟩

lemma statement_led (t : Token) (gs : List TokenGroup) :
    .leaf t :: gs = (⟨.leaf t, upTo isSemicolon gs⟩ : Stretch).toList ++ since isSemicolon gs := by
  rw [Stretch.toList, List.cons_append, upTo_append_since]

lemma scanned_behind {t : Token} {xs : List TokenGroup} {c : Nat}
    (hs : Scanned s.source.chars a (.leaf t :: xs) c) (ht : t.isSemicolon = false) :
    t.start < t.stop ∧ Scanned s.source.chars t.stop xs c :=
  ⟨(hs.chain.hop (t := t) (by simp) (Token.isAutomatic_of_isSemicolon ht)).lt, hs.behind⟩

lemma takes_verbatim {t : Token} {shape : Shape} (hs : Scanned s.source.chars a (.leaf t :: gs) b)
    (ht : t.isSemicolon = false) (hk : shape.kind.isWoven = true) (hp : shape.Proper IsIdentifier)
    (hf : ∀ n ∈ shape.children, Woven s.source.chars n ∧ n.kind.isSilent = true)
    (hd : shape.kind.isStmt = false)
    (ho : ∀ {a b : Nat}, Scanned s.source.chars a (upTo isSemicolon gs) b →
      Rising a (shape.children.flatMap Node.starts) b) :
    Takes s.source.chars (.leaf t :: gs) (verbatim s (statementSpan t gs) shape)
      (since isSemicolon gs) := by
  refine ⟨_, statement_led t gs, ?_⟩
  rw [statement_led t gs] at hs
  obtain ⟨hlt, hbehind⟩ := scanned_behind hs.left.trim.1 ht
  exact reads_verbatim hs.left rfl hk hp hf hd ((ho hbehind).mono hlt (Nat.le_refl _))

lemma importDecl_ok {t : Token} {step : Step gs} (hs : Scanned s.source.chars a (.leaf t :: gs) b)
    (ht : t.isSemicolon = false) (h : importDecl s t gs = .ok step) :
    Takes s.source.chars (.leaf t :: gs) step.node step.rest ∧
      IsDeclared s.source.chars step.node.shape := by
  unfold importDecl at h
  split at h
  · simp [failAtEnd] at h
  · next g rest =>
    have hnode (specs : List Node) : Takes s.source.chars (.leaf t :: g :: rest)
        (verbatim s (statementSpan t (g :: rest)) (.importDecl specs)) (since isSemicolon (g :: rest)) :=
      takes_verbatim hs ht rfl trivial (by simp [Shape.children]) rfl fun _ => .nil _ _
    dsimp only at h
    split at h
    · obtain ⟨specs, _, h⟩ := Except.bind_eq_ok_iff.1 h
      obtain rfl := Except.pure_eq_ok_iff.1 h
      exact ⟨hnode _, .unnamed rfl rfl⟩
    · obtain ⟨spec, _, h⟩ := Except.bind_eq_ok_iff.1 h
      obtain rfl := Except.pure_eq_ok_iff.1 h
      exact ⟨hnode _, .unnamed rfl rfl⟩

lemma typeParams_suffix (name : Token) (gs : List TokenGroup) : (typeParams name gs).2 <:+ gs := by
  unfold typeParams
  split
  · split
    · exact List.suffix_cons _ _
    · exact List.suffix_refl _
  · exact List.suffix_refl _

lemma aliasMark_suffix (gs : List TokenGroup) : (aliasMark gs).2 <:+ gs := by
  unfold aliasMark
  split
  · split
    · exact List.suffix_cons _ _
    · exact List.suffix_refl _
  · exact List.suffix_refl _

lemma Scanned.suffix {xs : List TokenGroup} (h : Scanned s.source.chars a gs b) (hx : xs <:+ gs) :
    Scanned s.source.chars a xs b := by
  obtain ⟨ys, rfl⟩ := hx
  exact h.right

lemma typeSpec_ok (hr : Remarks line s.comments) {follow : Token} {o : Option Placed}
    (hs : Scanned s.source.chars a gs b) (h : typeSpec s follow gs = .ok o) :
    (∀ p ∈ o, Woven s.source.chars p.node ∧ p.shape.kind = .typeSpec) ∧
      Rising a (startsIn o.toList) b := by
  unfold typeSpec at h
  split at h
  · obtain ⟨_, _, h⟩ := Except.bind_eq_ok_iff.1 h
    obtain rfl := Except.pure_eq_ok_iff.1 h
    exact ⟨by simp, .nil _ _⟩
  · next g rest =>
    obtain ⟨name, hname, h⟩ := Except.bind_eq_ok_iff.1 h
    obtain ⟨t, n, rfl, hl, rfl⟩ := of_identifier (hs.matched g (by simp)) hname
    have hident := reads_ident hs.head hl
    dsimp only at h
    split at h
    · obtain rfl := Except.pure_eq_ok_iff.1 h
      exact ⟨by simp, .nil _ _⟩
    · next st hst =>
      obtain ⟨type, htype, h⟩ := Except.bind_eq_ok_iff.1 h
      obtain rfl := Except.pure_eq_ok_iff.1 h
      have hsuf : st.toList <:+ rest := by
        rw [← Stretch.ofList?_eq_some_iff.1 hst]
        exact (aliasMark_suffix _).trans (typeParams_suffix _ _)
      have hst' := Scanned.suffix hs.tail hsuf
      obtain ⟨hread, hk⟩ := expr_ok hr st hst' htype
      constructor
      · rintro p ⟨⟩
        exact ⟨.bare ⟨rfl, hk⟩ rfl (List.forall_mem_cons.2 ⟨hident.woven,
          List.forall_mem_singleton.2 hread.woven⟩), rfl⟩
      · rw [Option.toList_some, startsIn_singleton, Placed.starts_node, Placed.inner, Shape.children,
          List.flatMap_cons, starts_of_ident rfl]
        simpa [Shape.kind, Kind.isStmt] using hread.rising hst'

lemma startsIn_filterMap (os : List (Option Placed)) :
    startsIn (os.filterMap id) = os.flatMap fun o => startsIn o.toList := by
  induction os with
  | nil => rfl
  | cons o os ih =>
    cases o with
    | none => exact ih
    | some p =>
      rw [List.flatMap_cons, ← ih, Option.toList_some, ← startsIn_append]
      rfl

lemma typeDecl_ok (hr : Remarks line s.comments) {t : Token} {step : Step gs}
    (hs : Scanned s.source.chars a (.leaf t :: gs) b) (ht : t.isSemicolon = false) (h : typeDecl s t gs = .ok step) :
    Takes s.source.chars (.leaf t :: gs) step.node step.rest ∧
      IsDeclared s.source.chars step.node.shape := by
  unfold typeDecl at h
  split at h
  · simp [failAtEnd] at h
  · next g rest =>
    have hnode (specs : List (Option Placed))
        (hspecs : ∀ o ∈ specs, ∀ p ∈ o, Woven s.source.chars p.node ∧ p.shape.kind = .typeSpec)
        (ho : ∀ {a b : Nat}, Scanned s.source.chars a (upTo isSemicolon (g :: rest)) b →
          Rising a (specs.flatMap fun o => startsIn o.toList) b) :
        Takes s.source.chars (.leaf t :: g :: rest) (verbatim s (statementSpan t (g :: rest))
          (.typeDecl ((specs.filterMap id).map Placed.node))) (since isSemicolon (g :: rest)) := by
      have hall : ∀ p ∈ specs.filterMap id,
          Woven s.source.chars p.node ∧ p.shape.kind = .typeSpec := by
        intro p hp
        obtain ⟨o, ho, hp⟩ := List.mem_filterMap.1 hp
        exact hspecs o ho p hp
      have hstarts : ((specs.filterMap id).map Placed.node).flatMap Node.starts =
          specs.flatMap fun o => startsIn o.toList := by
        rw [flatMap_starts, startsIn_filterMap]
      refine takes_verbatim hs ht rfl (List.forall_mem_map.2 fun p hp => (hall p hp).2)
        (List.forall_mem_map.2 fun p hp => ⟨(hall p hp).1, ?_⟩) rfl fun h => ?_
      · simp [Node.kind, Placed.node, Node.shape, (hall p hp).2, Kind.isSilent]
      · rw [Shape.children, hstarts]
        exact ho h
    dsimp only at h
    split at h
    · next o inner c =>
      obtain ⟨specs, hspecs, h⟩ := Except.bind_eq_ok_iff.1 h
      obtain rfl := Except.pure_eq_ok_iff.1 h
      refine ⟨hnode _ (Except.forall_of_mapM hspecs fun st hst o ho => ?_) fun h => ?_,
        .unnamed rfl rfl⟩
      · exact (typeSpec_ok hr (hs.tail.within.of_mem_split hst) ho).1
      · exact h.within.rising_split ((Except.forall₂_of_mapM hspecs).imp fun st o ho a b hst =>
          (typeSpec_ok hr hst ho).2)
    · obtain ⟨spec, hspec, h⟩ := Except.bind_eq_ok_iff.1 h
      obtain rfl := Except.pure_eq_ok_iff.1 h
      have hs' := hs.tail
      rw [← upTo_append_since isSemicolon (g :: rest)] at hs'
      exact ⟨hnode _ (List.forall_mem_singleton.2 (typeSpec_ok hr hs'.left hspec).1) fun h => by
        simpa using (typeSpec_ok hr h hspec).2, .unnamed rfl rfl⟩

lemma funcRest_ok (hr : Remarks line s.comments) {t : Token} {recv : Option String} {name : Placed}
    {pre : List TokenGroup} {step : Step gs}
    (hs : Scanned s.source.chars a (.leaf t :: (pre ++ gs)) b) (ht : t.isSemicolon = false)
    (hname : Woven s.source.chars name.node) (h : funcRest s t recv name gs = .ok step) :
    Takes s.source.chars (.leaf t :: (pre ++ gs)) step.node step.rest ∧
      IsDeclared s.source.chars step.node.shape := by
  unfold funcRest at h
  split at h
  · next o params c rest =>
    obtain ⟨type, htype, h⟩ := Except.bind_eq_ok_iff.1 h
    have htype' {a b : Nat} (h : Scanned s.source.chars a params b) := funcType_ok hr params h htype
    obtain ⟨hft, hkt, -⟩ := htype' hs.tail.right.within
    dsimp only at h
    split at h
    · next bo inner bc after hsig =>
      obtain ⟨body, hbody, h⟩ := Except.bind_eq_ok_iff.1 h
      obtain rfl := Except.pure_eq_ok_iff.1 h
      obtain ⟨sig, rfl, _⟩ := of_signatureEnd hsig
      have hbrace : Scanned s.source.chars a [.pair .curly bo inner bc] b :=
        hs.tail.right.tail.right.head
      have hgs : pre ++ .pair .round o params c :: (sig ++ .pair .curly bo inner bc :: after) =
          pre ++ .pair .round o params c :: sig ++
            ((⟨.pair .curly bo inner bc, []⟩ : Stretch).toList ++ after) := by simp [Stretch.toList]
      obtain ⟨hread, hkb⟩ := block_ok hr inner hbrace hbody
      have hauto := not_automatic_of_pair hbrace
      have hrise {a b : Nat} (h : Scanned s.source.chars a
          (pre ++ .pair .round o params c :: sig ++ [.pair .curly bo inner bc]) b) :
          Rising a ([type.node].flatMap Node.starts ++ startsIn [body]) b := by
        obtain ⟨m, h₁, h₂⟩ := h.split
        exact rising_typed (htype' h₁.right.within).2.2 (hread.rowed h₂ hauto) h₁.le
      obtain ⟨st, hst, hread', _⟩ := takes_led (pre ++ .pair .round o params c :: sig)
        ⟨.pair .curly bo inner bc, []⟩ [body] [type.node] (.funcDecl name.node type.node
          (Text.trimEnd Text.isSpace (s.source.slice t.start bo.start)) recv (some body.node))
        hs ht hgs rfl (fun h => ⟨hread.rowed h.right hauto, hrise h⟩) rfl rfl
        ⟨hkt, fun _ hn => Option.some.inj hn ▸ hkb⟩
        (List.forall_mem_singleton.2 ⟨hft, isSilent_funcType hkt⟩)
      exact ⟨⟨st, hst, hread'⟩, rfl, fun _ hn => Option.some.inj hn ▸ hname⟩
    · next last stop hno hsig =>
      obtain rfl := Except.pure_eq_ok_iff.1 h
      obtain ⟨sig, rfl, rfl⟩ := of_signatureEnd hsig
      let st : Stretch := ⟨.leaf t, pre ++ .pair .round o params c :: sig⟩
      have hgs : .leaf t :: (pre ++ .pair .round o params c :: (sig ++ stop)) = st.toList ++ stop := by
        simp [st, Stretch.toList]
      have hlast : st.last = (tokens sig).getLastD c := by
        rw [st.last_eq_getLastD t, Stretch.toList, ← List.cons_append, tokens_append,
          List.getLastD_append_right, getLastD_cons]
        rfl
      rw [hgs] at hs
      obtain ⟨hlt, hbehind⟩ := scanned_behind hs.left.trim.1 ht
      refine ⟨⟨st, hgs, reads_verbatim hs.left (by rw [← hlast]; rfl) rfl ⟨hkt, by simp⟩
        (List.forall_mem_singleton.2 ⟨hft, isSilent_funcType hkt⟩) rfl ?_⟩,
        rfl, fun _ hn => Option.some.inj hn ▸ hname⟩
      rw [Shape.children, Option.toList_none, List.flatMap_singleton]
      exact (htype' hbehind.right.within).2.2.mono hlt (Nat.le_refl _)
  · simp [fail] at h
  · simp [failAtEnd] at h

lemma funcDecl_ok (hr : Remarks line s.comments) {t : Token} {step : Step gs}
    (hs : Scanned s.source.chars a (.leaf t :: gs) b) (ht : t.isSemicolon = false) (h : funcDecl s t gs = .ok step) :
    Takes s.source.chars (.leaf t :: gs) step.node step.rest ∧
      IsDeclared s.source.chars step.node.shape := by
  unfold funcDecl at h
  split at h
  · simp [failAtEnd] at h
  · next g rest =>
    split at h
    · simp [failAtEnd] at h
    · next recv n more hrecv =>
      obtain ⟨name, hname, h⟩ := Except.bind_eq_ok_iff.1 h
      split at h
      · simp [failAtEnd] at h
      · obtain ⟨step', hstep, h⟩ := Except.bind_eq_ok_iff.1 h
        obtain rfl := Except.pure_eq_ok_iff.1 h
        have hsuffix : n :: more <:+ g :: rest := by
          have := receiver_suffix s (g :: rest)
          rwa [hrecv] at this
        have hn := (Scanned.suffix hs.tail hsuffix).head
        obtain ⟨u, _, rfl, hl, rfl⟩ := of_identifier (hn.matched n (by simp)) hname
        obtain ⟨pre, hpre⟩ : afterTypeParams more <:+ g :: rest :=
          ((afterTypeParams_suffix more).trans (List.suffix_cons _ _)).trans hsuffix
        rw [← hpre] at hs
        obtain ⟨⟨st, hst, hread⟩, hk⟩ := funcRest_ok hr hs ht (reads_ident hn hl).woven hstep
        rw [hpre] at hst
        exact ⟨⟨st, hst, hread⟩, hk⟩

lemma genDecl_ok (hr : Remarks line s.comments) {t : Token} {step : Step gs}
    (hs : Scanned s.source.chars a (.leaf t :: gs) b) (h : genDecl s t gs = .ok step) :
    Takes s.source.chars (.leaf t :: gs) step.node step.rest ∧
      IsDeclared s.source.chars step.node.shape := by
  obtain ⟨nodes, hn, h⟩ := Except.bind_eq_ok_iff.1 h
  obtain rfl := Except.pure_eq_ok_iff.1 h
  rw [statement_led t gs] at hs
  obtain ⟨hrow, hk⟩ := rawNodes_ok hr _ hs.left.trim.1.tail hn
  exact ⟨⟨_, statement_led t gs, reads_raw rfl hrow (fun _ => rfl) (fun _ => rfl)
    (List.forall_mem_map.2 hk) (by rintro ⟨⟩) hk⟩, .unnamed rfl rfl⟩

lemma decl_ok (hr : Remarks line s.comments) {t : Token} {step : Step gs}
    (hs : Scanned s.source.chars a (.leaf t :: gs) b) (h : decl s t gs = .ok step) :
    Takes s.source.chars (.leaf t :: gs) step.node step.rest ∧
      IsDeclared s.source.chars step.node.shape := by
  unfold decl at h
  split at h
  · next hl => exact importDecl_ok hs (by simp [Token.isSemicolon, hl]) h
  · next hl => exact funcDecl_ok hr hs (by simp [Token.isSemicolon, hl]) h
  · next hl => exact typeDecl_ok hr hs (by simp [Token.isSemicolon, hl]) h
  · exact genDecl_ok hr hs h
  · exact genDecl_ok hr hs h
  · simp [fail] at h

lemma eq_leaf_of_decl {g : TokenGroup} {step : Step gs} (hg : g.Matched)
    (h : decl s g.first gs = .ok step) : g = .leaf g.first := by
  cases hg with
  | leaf => rfl
  | pair ho => simp [decl, TokenGroup.first, ho, fail] at h

lemma decls_ok (hr : Remarks line s.comments) {ps : List Placed} (hs : Scanned s.source.chars a gs b)
    (h : decls s gs = .ok ps) :
    Rowed s.source.chars a ps b ∧ ∀ p ∈ ps, IsDeclared s.source.chars p.shape := by
  induction gs using decls.induct generalizing a ps with
  | case1 =>
    rw [decls] at h
    obtain rfl := Except.pure_eq_ok_iff.1 h
    exact ⟨hs.nil, by simp⟩
  | case2 g rest hg ih =>
    rw [decls, if_pos hg] at h
    exact ih hs.tail h
  | case3 g rest hg ih =>
    rw [decls, if_neg hg] at h
    obtain ⟨step, hstep, h⟩ := Except.bind_eq_ok_iff.1 h
    obtain ⟨ps', hps, h⟩ := Except.bind_eq_ok_iff.1 h
    obtain rfl := Except.pure_eq_ok_iff.1 h
    have hstart := (hs.matched g (by simp)).not_automatic (by simpa using hg)
    rw [eq_leaf_of_decl (hs.matched g (by simp)) hstep] at hs
    obtain ⟨⟨st, hst, hread⟩, hk⟩ := decl_ok hr hs hstep
    have hauto : st.first.isAutomatic = false := Stretch.first_of_cons hst ▸ hstart
    rw [hst] at hs
    obtain ⟨m, h₁, h₂⟩ := hs.split
    obtain ⟨hrow, hks⟩ := ih step h₂ hps
    exact ⟨(hread.rowed h₁ hauto).append hrow, List.forall_mem_cons.2 ⟨hk, hks⟩⟩

end Parser

end ParallelTests
