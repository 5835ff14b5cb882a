import ParallelTests.Proofs.Parse.Groups
import ParallelTests.Proofs.Parse.Rules
import ParallelTests.Proofs.Parse.Split
import ParallelTests.Proofs.Semicolon.Outline

/-!
The rules of the grammar read forwards: which groups give a name, a literal, a pointer, a selector, a
call and a list of these, and what the tree read from them looks like.
-/

namespace ParallelTests

namespace TokenGroup

def Grouped (ts : List Token) (gs : List TokenGroup) : Prop :=
  ∀ frames here rest, nest frames here (ts ++ rest) = nest frames (gs.reverse ++ here) rest

namespace Grouped

variable {ts us : List Token} {gs hs : List TokenGroup}

lemma nil : Grouped [] [] :=
  fun _ _ _ => rfl

lemma append (h : Grouped ts gs) (h' : Grouped us hs) : Grouped (ts ++ us) (gs ++ hs) := by
  intro frames here rest
  rw [List.append_assoc, h, h', List.reverse_append, List.append_assoc]

lemma leaf {t : Token} (ho : ∀ b, t.lexeme ≠ .op (.opening b)) (hc : ∀ b, t.lexeme ≠ .op (.closing b)) :
    Grouped [t] [.leaf t] :=
  fun _ _ _ => nest_leaf ho hc

lemma pair {b : Bracket} {o c : Token} (h : Grouped ts gs) (ho : o.lexeme = .op (.opening b))
    (hc : c.lexeme = .op (.closing b)) : Grouped (o :: (ts ++ [c])) [.pair b o gs c] := by
  intro frames here rest
  rw [List.cons_append, List.append_assoc, nest, ho]
  dsimp only
  rw [h]
  simp [nest, hc]

lemma ofTokens_eq (h : Grouped ts gs) : ofTokens ts = .ok gs := by
  have := h [] [] []
  simpa [ofTokens, nest] using this

end Grouped

def isInert : TokenGroup → Bool
  | .leaf t =>
    match t.lexeme with
    | .ident _ | .string _ | .rune _ | .op .period | .op (.arith .mul) => true
    | _ => false
  | .pair b _ _ _ => b = .round

variable {g : TokenGroup}

lemma lexeme_of_isInert {t : Token} (h : isInert (.leaf t) = true) :
    (∃ name, t.lexeme = .ident name) ∨ (∃ text, t.lexeme = .string text ∨ t.lexeme = .rune text) ∨
      t.lexeme = .op .period ∨ t.lexeme = .op (.arith .mul) := by
  simp only [isInert] at h
  split at h <;> simp_all

lemma isOp_of_isInert (h : g.isInert = true) {o : Operator} (hp : o ≠ .period)
    (hm : o ≠ .arith .mul) : g.isOp o = false := by
  cases g with
  | pair => rfl
  | leaf t =>
    rcases lexeme_of_isInert h with ⟨_, hl⟩ | ⟨_, hl | hl⟩ | hl | hl <;>
      simp [isOp, Token.isOp, hl, hp.symm, hm.symm]

lemma isSemicolon_of_isInert (h : g.isInert = true) : g.isSemicolon = false := by
  cases g with
  | pair => rfl
  | leaf t =>
    rcases lexeme_of_isInert h with ⟨_, hl⟩ | ⟨_, hl | hl⟩ | hl | hl <;>
      simp [isSemicolon, Token.isSemicolon, hl]

lemma isTurn_of_isInert (h : g.isInert = true) : Parser.isTurn g = false := by
  cases g with
  | pair => rfl
  | leaf t =>
    rcases lexeme_of_isInert h with ⟨_, hl⟩ | ⟨_, hl | hl⟩ | hl | hl <;>
      simp [Parser.isTurn, hl, Operator.assigns]

lemma isClause_of_isInert (h : g.isInert = true) : Parser.isClause g = false := by
  cases g with
  | pair => rfl
  | leaf t =>
    rcases lexeme_of_isInert h with ⟨_, hl⟩ | ⟨_, hl | hl⟩ | hl | hl <;>
      simp [Parser.isClause, Token.isKeyword, hl]

end TokenGroup

namespace Stretch

open TokenGroup

variable {sep : TokenGroup → Bool} {xs gs : List TokenGroup} {g : TokenGroup} {st : Stretch}

lemma runs_of_none (h : ∀ x ∈ xs, sep x = false) : runs sep xs = [xs] := by
  induction xs with
  | nil => rfl
  | cons x xs ih =>
    obtain ⟨hx, hxs⟩ := List.forall_mem_cons.1 h
    simp [runs, ih hxs, hx]

lemma runs_append_cons (h : ∀ x ∈ xs, sep x = false) (hg : sep g = true) :
    runs sep (xs ++ g :: gs) = xs :: runs sep gs := by
  induction xs with
  | nil =>
    obtain ⟨r, rs, hr⟩ := List.exists_cons_of_ne_nil (runs_ne_nil sep gs)
    simp [runs, hr, hg]
  | cons x xs ih =>
    obtain ⟨hx, hxs⟩ := List.forall_mem_cons.1 h
    simp [runs, ih hxs, hx]

lemma split_of_none (h : ∀ x ∈ st.toList, sep x = false) : split sep st.toList = [st] := by
  rw [split, runs_of_none h]
  rfl

lemma split_append_cons (h : ∀ x ∈ st.toList, sep x = false) (hg : sep g = true) :
    split sep (st.toList ++ g :: gs) = st :: split sep gs := by
  rw [split, runs_append_cons h hg]
  rfl

end Stretch

namespace Parser

open TokenGroup

variable {s : TokenStream} {t : Token} {node p : Placed} {gs rest : List TokenGroup} {st : Stretch}

def Trails (s : TokenStream) (t : Token) (node : Placed) (gs : List TokenGroup) (p : Placed)
    (rest : List TokenGroup) : Prop :=
  ∃ step, trailers s t node gs = .ok step ∧ step.node = p ∧ step.rest = rest

def Operand (s : TokenStream) (st : Stretch) (p : Placed) (rest : List TokenGroup) : Prop :=
  ∃ step, primary s st = .ok (some step) ∧ step.node = p ∧ step.rest = rest

def woven (s : TokenStream) (span : Span) (shape : Shape) (nodes : List Placed) : Placed :=
  { span := span, shape := shape, pieces := s.source.pieces span 0 nodes }

lemma shape_woven (s : TokenStream) (span : Span) (shape : Shape) (nodes : List Placed) :
    (woven s span shape nodes).node.shape = shape :=
  rfl

lemma Trails.nil : Trails s t node [] node [] := by
  refine ⟨⟨node, [], List.suffix_refl _⟩, ?_, rfl, rfl⟩
  simp [trailers, pure, Except.pure]

lemma Trails.selector {dot n : Token} {name : String} (hd : dot.lexeme = .op .period)
    (hn : n.lexeme = .ident name)
    (h : Trails s t (woven s (.ofTokens t n) (.selector node.node (Placed.ident n name).node)
      [node, .ident n name]) gs p rest) : Trails s t node (.leaf dot :: .leaf n :: gs) p rest := by
  obtain ⟨step, hs, rfl, rfl⟩ := h
  rw [woven] at hs
  refine ⟨step.mono ((List.suffix_cons _ _).trans (List.suffix_cons _ _)), ?_, rfl, rfl⟩
  simp [trailers, hd, hn, hs, pure, Except.pure, bind, Except.bind]

lemma Trails.call {o c : Token} {inner : List TokenGroup} {args : List (Placed × Bool)}
    (ha : (Stretch.split (isOp .comma) inner).mapM (argument s) = .ok args)
    (h : Trails s t (woven s (.ofTokens t c)
      (.call node.node ((args.map (·.1)).map Placed.node) (args.any (·.2))) (node :: args.map (·.1)))
      gs p rest) : Trails s t node (.pair .round o inner c :: gs) p rest := by
  obtain ⟨step, hs, rfl, rfl⟩ := h
  rw [woven] at hs
  refine ⟨step.mono (List.suffix_cons _ _), ?_, rfl, rfl⟩
  rw [trailers, Except.attach_mapM_eq (g := argument s) fun _ _ => rfl, ha]
  simp only [bind, Except.bind] at hs ⊢
  rw [hs]
  rfl

lemma Operand.ident {name : String} (hl : t.lexeme = .ident name)
    (h : Trails s t (.ident t name) gs p rest) : Operand s ⟨.leaf t, gs⟩ p rest := by
  obtain ⟨step, hs, rfl, rfl⟩ := h
  exact ⟨step, by simp [primary, hl, hs, bind, Except.bind, pure, Except.pure], rfl, rfl⟩

lemma Operand.literal {text : String} (hl : t.lexeme = .string text ∨ t.lexeme = .rune text)
    (h : Trails s t (.basicLit t) gs p rest) : Operand s ⟨.leaf t, gs⟩ p rest := by
  obtain ⟨step, hs, rfl, rfl⟩ := h
  refine ⟨step, ?_, rfl, rfl⟩
  rcases hl with hl | hl <;> simp [primary, hl, hs, bind, Except.bind, pure, Except.pure]

lemma Operand.star (hl : t.lexeme = .op (.arith .mul)) (h : Operand s st p rest) :
    Operand s ⟨.leaf t, st.toList⟩
      (woven s ((Span.ofToken t).through p.span) (.star p.node) [p]) rest := by
  obtain ⟨step, hs, rfl, rfl⟩ := h
  rw [Operand, primary]
  simp only [hl]
  split
  · next hnone => simp [Stretch.ofList?, Stretch.toList] at hnone
  · next inner hinner =>
    obtain rfl : st = inner := Stretch.eq_of_toList_eq (Stretch.ofList?_eq_some_iff.1 hinner)
    rw [hs]
    exact ⟨_, rfl, rfl, rfl⟩

lemma Operand.expr (h : Operand s st p []) (after : Bool) : expr s after st = .ok p := by
  obtain ⟨⟨node, rest, hr⟩, hs, rfl, hnil⟩ := h
  obtain rfl : rest = [] := hnil
  rw [Parser.expr, hs]
  rfl

end Parser

namespace Shape

lemma label_call (callee : Node) (args : List Node) (ellipsis : Bool) :
    (call callee args ellipsis).label =
      .call (.bare (.unknown "")) (List.replicate args.length (.bare (.unknown ""))) ellipsis := by
  simp [label, mapChildren, List.mapIdx_eq_zipIdx_map, List.map_const']

lemma label_assign (lhs rhs : List Node) (tok : String) :
    (assign lhs tok rhs).label = .assign (List.replicate lhs.length (.bare (.unknown ""))) tok
      (List.replicate rhs.length (.bare (.unknown ""))) := by
  simp [label, mapChildren, List.mapIdx_eq_zipIdx_map, List.map_const']

end Shape

namespace Parser

open TokenGroup

structure Reading (e : Node) (st : Stretch) : Prop where
  inert : ∀ g ∈ st.toList, g.isInert = true
  head : ∃ t, st.head = .leaf t
  whole : ∀ s, ∃ p, Operand s st p [] ∧ p.node.outline = e.outline
  goesOn : e.kind ≠ .star → ∀ s, ∃ t p, p.node.outline = e.outline ∧
    ∀ gs q rest, Trails s t p gs q rest → Operand s ⟨st.head, st.tail ++ gs⟩ q rest

inductive Row : List Node → List TokenGroup → Prop
  | nil : Row [] []
  | single {e : Node} {st : Stretch} (h : Reading e st) : Row [e] st.toList
  | cons {e : Node} {st : Stretch} {t : Token} {es : List Node} {gs : List TokenGroup}
      (h : Reading e st) (ht : t.lexeme = .op .comma) (hne : es ≠ []) (hr : Row es gs) :
      Row (e :: es) (st.toList ++ .leaf t :: gs)

variable {s : TokenStream} {e x callee sel : Node} {es args : List Node} {st : Stretch} {t o c dot n : Token}
  {gs dots : List TokenGroup} {name text : String}

lemma Reading.of_goesOn (hi : ∀ g ∈ st.toList, g.isInert = true) (ht : ∃ t, st.head = .leaf t)
    (h : ∀ s, ∃ t p, p.node.outline = e.outline ∧
      ∀ gs q rest, Trails s t p gs q rest → Operand s ⟨st.head, st.tail ++ gs⟩ q rest) :
    Reading e st := by
  refine ⟨hi, ht, fun s => ?_, fun _ => h⟩
  obtain ⟨t, p, hp, hgoes⟩ := h s
  have hp' := hgoes [] p [] .nil
  rw [List.append_nil] at hp'
  exact ⟨p, hp', hp⟩

lemma reading_ident (hl : t.lexeme = .ident name) (he : e.shape = .ident name) :
    Reading e ⟨.leaf t, []⟩ := by
  refine .of_goesOn (by simp [Stretch.toList, isInert, hl]) ⟨t, rfl⟩ fun s => ?_
  exact ⟨t, .ident t name, Node.outline_of_shape he.symm, fun gs q rest h => .ident hl h⟩

lemma reading_literal (hl : t.lexeme = .string text ∨ t.lexeme = .rune text)
    (he : e.shape = .basicLit text) : Reading e ⟨.leaf t, []⟩ := by
  have htext : t.text = text := by
    rcases hl with hl | hl <;> rw [Token.text, hl, Lexeme.text]
  refine .of_goesOn ?_ ⟨t, rfl⟩ fun s => ?_
  · rcases hl with hl | hl <;> simp [Stretch.toList, isInert, hl]
  · refine ⟨t, .basicLit t, Node.outline_of_shape ?_, fun gs q rest h => .literal hl h⟩
    rw [he, ← htext]
    rfl

lemma Reading.star (h : Reading x st) (hl : t.lexeme = .op (.arith .mul)) (he : e.shape = .star x) :
    Reading e ⟨.leaf t, st.toList⟩ := by
  refine ⟨?_, ⟨t, rfl⟩, fun s => ?_, fun hk => absurd (by rw [Node.kind, he]; rfl) hk⟩
  · exact List.forall_mem_cons.2 ⟨by simp [isInert, hl], h.inert⟩
  · obtain ⟨p, hp, ho⟩ := h.whole s
    exact ⟨_, hp.star hl, Node.outline_of_label (shape_woven ..) he rfl (by simpa [Shape.children] using ho)⟩

lemma Reading.selector (h : Reading x st) (hk : x.kind ≠ .star) (hd : dot.lexeme = .op .period)
    (hn : n.lexeme = .ident name) (he : e.shape = .selector x sel) (hs : sel.shape = .ident name) :
    Reading e ⟨st.head, st.tail ++ [.leaf dot, .leaf n]⟩ := by
  refine .of_goesOn ?_ h.head fun s => ?_
  · have hmore : ∀ g ∈ [TokenGroup.leaf dot, .leaf n], g.isInert = true := by
      simp [isInert, hd, hn]
    exact List.forall_mem_append.2 ⟨h.inert, hmore⟩
  · obtain ⟨t, p, hp, hgoes⟩ := h.goesOn hk s
    have hsel : (Placed.ident n name).node.outline = sel.outline := Node.outline_of_shape hs.symm
    refine ⟨t, woven s (.ofTokens t n) (.selector p.node (Placed.ident n name).node)
      [p, .ident n name], Node.outline_of_label (shape_woven ..) he rfl ?_, fun gs q rest htr => ?_⟩
    · simp [Shape.children, hp, hsel]
    · rw [List.append_assoc]
      exact hgoes _ q rest (.selector hd hn htr)

namespace Row

lemma plain (h : Row es gs) :
    ∀ g ∈ gs, g.isSemicolon = false ∧ isTurn g = false ∧ g.isOp .colon = false := by
  have hinert {g : TokenGroup} (hg : g.isInert = true) :
      g.isSemicolon = false ∧ isTurn g = false ∧ g.isOp .colon = false :=
    ⟨isSemicolon_of_isInert hg, isTurn_of_isInert hg, isOp_of_isInert hg (by simp) (by simp)⟩
  induction h with
  | nil => simp
  | single h => exact fun g hg => hinert (h.inert g hg)
  | cons h ht _ _ ih =>
    refine List.forall_mem_append.2 ⟨fun g hg => hinert (h.inert g hg), List.forall_mem_cons.2 ⟨?_, ih⟩⟩
    simp [isSemicolon, Token.isSemicolon, isTurn, isOp, Token.isOp, ht, Operator.assigns]

lemma head (h : Row es gs) (hne : es ≠ []) : ∃ t tail, gs = .leaf t :: tail ∧ isInert (.leaf t) = true := by
  have hfirst {e : Node} {st : Stretch} (h : Reading e st) (more : List TokenGroup) :
      ∃ t tail, st.toList ++ more = .leaf t :: tail ∧ isInert (.leaf t) = true := by
    obtain ⟨t, ht⟩ := h.head
    refine ⟨t, st.tail ++ more, by rw [← ht]; rfl, ?_⟩
    rw [← ht]
    exact h.inert _ (by simp [Stretch.toList])
  cases h with
  | nil => exact absurd rfl hne
  | @single e st h => simpa using hfirst h []
  | cons h => exact hfirst h _

lemma exprs_eq (s : TokenStream) (gs : List TokenGroup) :
    exprs s gs = (Stretch.split (isOp .comma) gs).mapM (expr s false) := by
  rw [exprs]
  exact Except.attach_mapM_eq fun _ _ => rfl

end Row

lemma Reading.isOp_comma (h : Reading e st) : ∀ g ∈ st.toList, g.isOp .comma = false :=
  fun g hg => isOp_of_isInert (h.inert g hg) (by simp) (by simp)

lemma Reading.argument (h : Reading e st) (s : TokenStream) :
    ∃ p, argument s st = .ok (p, false) ∧ p.node.outline = e.outline := by
  obtain ⟨p, hp, ho⟩ := h.whole s
  have hnone : dropEllipsis? st = none := by
    have hlast : (st.tail.getLastD st.head).isOp .ellipsis = false :=
      isOp_of_isInert (h.inert _ List.getLastD_mem_cons) (by simp) (by simp)
    rw [dropEllipsis?, hlast]
    rfl
  refine ⟨p, ?_, ho⟩
  rw [Parser.argument]
  split
  · rw [hp.expr]
    rfl
  · next hd => simp [hnone] at hd

lemma Reading.argument_ellipsis (h : Reading e st) (ht : t.lexeme = .op .ellipsis) (s : TokenStream) :
    ∃ p, Parser.argument s ⟨st.head, st.tail ++ [.leaf t]⟩ = .ok (p, true) ∧
      p.node.outline = e.outline := by
  obtain ⟨p, hp, ho⟩ := h.whole s
  have hdrop : dropEllipsis? ⟨st.head, st.tail ++ [.leaf t]⟩ = some st.toList := by
    rw [dropEllipsis?, if_pos (by simp [isOp, Token.isOp, ht])]
    have hlast : (st.toList ++ [TokenGroup.leaf t]).dropLast = st.toList := List.dropLast_concat
    exact congrArg some hlast
  refine ⟨p, ?_, ho⟩
  rw [Parser.argument]
  split
  · next hd => simp [hdrop] at hd
  · next gs hd =>
    obtain rfl : st.toList = gs := Option.some.inj (hdrop.symm.trans hd)
    split
    · next hn => simp [Stretch.ofList?, Stretch.toList] at hn
    · next inner hi =>
      obtain rfl : st = inner := Stretch.eq_of_toList_eq (Stretch.ofList?_eq_some_iff.1 hi)
      rw [hp.expr]
      rfl

namespace Row

lemma exprs (h : Row es gs) (s : TokenStream) :
    ∃ ps, Parser.exprs s gs = .ok ps ∧ ps.map (·.node.outline) = es.map Node.outline := by
  rw [exprs_eq]
  induction h with
  | nil => exact ⟨[], rfl, rfl⟩
  | single h =>
    obtain ⟨p, hp, ho⟩ := h.whole s
    refine ⟨[p], ?_, by simp [ho]⟩
    rw [Stretch.split_of_none h.isOp_comma]
    simp [hp.expr, bind, Except.bind, pure, Except.pure]
  | cons h ht _ _ ih =>
    obtain ⟨p, hp, ho⟩ := h.whole s
    obtain ⟨ps, hps, hos⟩ := ih
    refine ⟨p :: ps, ?_, by simp [ho, hos]⟩
    rw [Stretch.split_append_cons h.isOp_comma (by simp [isOp, Token.isOp, ht]), List.mapM_cons,
      hp.expr, hps]
    rfl

lemma arguments (h : Row es gs)
    (hd : dots = [] ∨ es ≠ [] ∧ ∃ t : Token, t.lexeme = .op .ellipsis ∧ dots = [.leaf t])
    (s : TokenStream) : ∃ args, (Stretch.split (isOp .comma) (gs ++ dots)).mapM (argument s) = .ok args ∧
      args.map (·.1.node.outline) = es.map Node.outline ∧ args.any (·.2) = !dots.isEmpty := by
  induction h with
  | nil =>
    obtain rfl : dots = [] := hd.resolve_right fun h => h.1 rfl
    exact ⟨[], rfl, rfl, rfl⟩
  | @single e st h =>
    rcases hd with rfl | ⟨-, t, ht, rfl⟩
    · obtain ⟨p, hp, ho⟩ := h.argument s
      refine ⟨[(p, false)], ?_, by simp [ho], rfl⟩
      rw [List.append_nil, Stretch.split_of_none h.isOp_comma]
      simp [hp, bind, Except.bind, pure, Except.pure]
    · obtain ⟨p, hp, ho⟩ := h.argument_ellipsis ht s
      refine ⟨[(p, true)], ?_, by simp [ho], rfl⟩
      have hcomma : ∀ g ∈ (⟨st.head, st.tail ++ [.leaf t]⟩ : Stretch).toList, g.isOp .comma = false :=
        List.forall_mem_append.2 ⟨h.isOp_comma, by simp [isOp, Token.isOp, ht]⟩
      have hsplit : Stretch.split (isOp .comma) (st.toList ++ [.leaf t]) = [⟨st.head, st.tail ++ [.leaf t]⟩] :=
        Stretch.split_of_none hcomma
      rw [hsplit]
      simp [hp, bind, Except.bind, pure, Except.pure]
  | cons h ht hne _ ih =>
    obtain ⟨p, hp, ho⟩ := h.argument s
    obtain ⟨args, hargs, hos, hany⟩ := ih (hd.imp_right fun h => ⟨hne, h.2⟩)
    refine ⟨(p, false) :: args, ?_, by simp [ho, hos], by simpa using hany⟩
    rw [List.append_assoc, List.cons_append,
      Stretch.split_append_cons h.isOp_comma (by simp [isOp, Token.isOp, ht]), List.mapM_cons, hp, hargs]
    rfl

end Row

lemma Reading.call (h : Reading callee st) (hk : callee.kind ≠ .star) (hr : Row args gs)
    (hd : dots = [] ∨ args ≠ [] ∧ ∃ t : Token, t.lexeme = .op .ellipsis ∧ dots = [.leaf t])
    (he : e.shape = .call callee args (!dots.isEmpty)) :
    Reading e ⟨st.head, st.tail ++ [.pair .round o (gs ++ dots) c]⟩ := by
  refine .of_goesOn ?_ h.head fun s => ?_
  · exact List.forall_mem_append.2 ⟨h.inert, by simp [isInert]⟩
  · obtain ⟨t, p, hp, hgoes⟩ := h.goesOn hk s
    obtain ⟨as, has, hos, hany⟩ := hr.arguments hd s
    have hlength : as.length = args.length := by simpa using congrArg List.length hos
    refine ⟨t, woven s (.ofTokens t c)
      (.call p.node ((as.map (·.1)).map Placed.node) (as.any (·.2))) (p :: as.map (·.1)),
      Node.outline_of_label (shape_woven ..) he ?_ ?_, fun gs q rest htr => ?_⟩
    · rw [Shape.label_call, Shape.label_call, hany]
      simp [hlength]
    · simpa [Shape.children, hp, Function.comp_def] using hos
    · rw [List.append_assoc]
      exact hgoes _ q rest (.call has htr)

end Parser

end ParallelTests
