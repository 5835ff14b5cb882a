import ParallelTests.Proofs.Parse.Parted
import ParallelTests.Proofs.Parse.Rules

namespace ParallelTests.Parser

open Scan TokenGroup

def Gives {α : Type} (P : α → Prop) : Result α → Prop
  | .ok a => P a
  | .error _ => True

namespace Gives

variable {α β : Type} {P : α → Prop} {Q : β → Prop} {x : Result α}

lemma of_ok {a : α} (h : Gives P x) (hx : x = .ok a) : P a := by
  rwa [hx] at h

lemma fail {t : Token} {reason : Reason} : Gives P (Parser.fail reason t) := trivial

lemma bind_of_ok {f : α → Result β} (hf : ∀ a, x = .ok a → Gives Q (f a)) : Gives Q (x >>= f) := by
  cases x with
  | ok a => exact hf a rfl
  | error e => trivial

lemma bind {f : α → Result β} (h : Gives P x) (hf : ∀ a, P a → Gives Q (f a)) :
    Gives Q (x >>= f) :=
  bind_of_ok fun a ha => hf a (h.of_ok ha)

lemma mapM {f : α → Result β} {xs : List α} (h : ∀ x ∈ xs, Gives Q (f x)) :
    Gives (fun ys => ∀ y ∈ ys, Q y) (xs.mapM f) := by
  cases hm : xs.mapM f with
  | ok ys => exact Except.forall_of_mapM hm fun x hx y hy => (h x hx).of_ok hy
  | error e => trivial

lemma attach_mapM {xs : List α} {f : { x // x ∈ xs } → Result β}
    (h : ∀ x hx, Gives Q (f ⟨x, hx⟩)) : Gives (fun ys => ∀ y ∈ ys, Q y) (xs.attach.mapM f) :=
  mapM fun x _ => h x.1 x.2

end Gives

variable {s : TokenStream}

def partedLaw (s : TokenStream) : Law where
  expr st := s.Has st.toList → ∀ after, Gives (Parted s ·.node) (expr s after st)
  primary st := s.Has st.toList →
    Gives (fun o => ∀ step ∈ o, Parted s step.node.node) (primary s st)
  trailers gs := s.Has gs → ∀ start node, Parted s node.node →
    Gives (Parted s ·.node.node) (trailers s start node gs)
  argument st := s.Has st.toList → Gives (Parted s ·.1.node) (argument s st)
  funcLit gs := s.Has gs → ∀ t,
    Gives (fun o => ∀ step ∈ o, Parted s step.node.node) (funcLit s t gs)
  funcType inner := s.Has inner → ∀ o c, Gives (Parted s ·.node) (funcType s o inner c)
  rawNodes gs := s.Has gs → ∀ after,
    Gives (fun ps => ∀ p ∈ ps, Parted s p.node) (rawNodes s after gs)
  block inner := ∀ o c, s.Has [.pair .curly o inner c] →
    Gives (Parted s ·.node) (block s o inner c)
  items gs := ∀ closer, s.Within gs closer →
    Gives (fun os => ∀ o ∈ os, Parted s o.stmt.node) (items s closer gs)
  clause gs := ∀ t closer, isClause (.leaf t) = true → s.Within (.leaf t :: gs) closer →
    Gives (Parted s ·.node.node) (clause s t closer gs)
  clauseBody gs := s.Has gs → ∀ closer,
    Gives (fun r => ∀ p ∈ r.nodes, Parted s p.node) (clauseBody s closer gs)
  stmt st := s.Has st.toList → ∀ closer, Gives (Parted s ·.node.node) (stmt s closer st)
  labeled gs := ∀ closer t name colon, s.Has (.leaf t :: .leaf colon :: gs) →
    t.lexeme = .ident name → colon.lexeme = .op .colon →
      Gives (Parted s ·.node.node) (labeled s closer t name colon gs)
  rawStmt st := s.Has st.toList → Gives (Parted s ·.node.node) (rawStmt s st)
  bodyStmt gs := s.Has gs → ∀ t closer, Gives (Parted s ·.node.node) (bodyStmt s t closer gs)
  ifStmt gs := s.Has gs → ∀ t closer, Gives (Parted s ·.node.node) (ifStmt s t closer gs)
  forStmt gs := s.Has gs → ∀ t closer, Gives (Parted s ·.node.node) (forStmt s t closer gs)
  rangeVars bound := s.Has bound → ∀ gs,
    Gives (fun r => ∀ p ∈ r.2, Parted s p.node) (rangeVars s gs bound)
  varStmt gs := s.Has gs → ∀ t closer, Gives (Parted s ·.node.node) (varStmt s t closer gs)
  varType gs := s.Has gs → Gives (fun o => ∀ p ∈ o, Parted s p.node) (varType s gs)
  exprs gs := s.Has gs → Gives (fun ps => ∀ p ∈ ps, Parted s p.node) (exprs s gs)
  simple st := s.Has st.toList → Gives (Parted s ·.node.node) (simple s st)

lemma parted_raw {src : Source} {span : Span} {shape : List Node → Shape} {nodes : List Placed}
    (hk : ∀ ns, (shape ns).kind.hasBody = false) (hc : ∀ ns, (shape ns).children = ns)
    (h : ∀ p ∈ nodes, Parted s p.node) : Parted s (raw src span shape nodes).node := by
  refine .of_kind (hk _) ?_
  rw [raw, hc]
  exact List.forall_mem_map.2 h

lemma parted_ident (t : Token) (name : String) : Parted s (Placed.ident t name).node :=
  .leaf rfl rfl

section

variable {st : Stretch} {gs : List TokenGroup}

lemma expr_parted (ih : (partedLaw s).Below (8 * st.size + 1)) : (partedLaw s).expr st := by
  intro h after
  rw [expr]
  apply (ih.primary st (by omega) h).bind
  intro o ho
  split
  · exact ho _ rfl
  · apply (ih.rawNodes st.toList (by simp) h after).bind
    intro nodes hn
    exact parted_raw (fun _ => rfl) (fun _ => rfl) hn

lemma primary_parted (ih : (partedLaw s).Below (8 * st.size)) : (partedLaw s).primary st := by
  intro h
  obtain ⟨g, gs⟩ := st
  have htail : size gs < (⟨g, gs⟩ : Stretch).size := Stretch.size_tail_lt ⟨g, gs⟩
  rw [primary]
  split
  · exact fun step hstep => by cases hstep
  · next t hd =>
    have htrailers : ∀ node : Placed, Parted s node.node →
        Gives (fun o => ∀ step ∈ o, Parted s step.node.node)
          (return some (← trailers s t node gs)) := by
      intro node hnode
      apply (ih.trailers gs (by omega) h.tail t node hnode).bind
      rintro step hstep _ ⟨⟩
      exact hstep
    split
    · split
      · exact fun step hstep => by cases hstep
      · next inner hi =>
        have hin : gs = inner.toList := Stretch.ofList?_eq_some_iff.1 hi
        have hsize : inner.size = size gs := Stretch.size_of_ofList? hi
        apply (ih.primary inner (by omega) (hin ▸ h.tail)).bind
        intro o ho
        split
        · exact fun step hstep => by cases hstep
        · next step =>
          rintro _ ⟨⟩
          exact .of_kind rfl (List.forall_mem_singleton.2 (ho step rfl))
    · exact htrailers _ (parted_ident t _)
    · exact htrailers _ (.leaf rfl rfl)
    · exact htrailers _ (.leaf rfl rfl)
    · exact htrailers _ (.leaf rfl rfl)
    · apply (ih.funcLit gs (by omega) h.tail t).bind
      intro o ho
      split
      · exact fun step hstep => by cases hstep
      · next step =>
        have hsize : size step.rest ≤ size gs := size_le_of_suffix step.rest_suffix
        apply (ih.trailers step.rest (by omega) (h.tail.suffix step.rest_suffix) t step.node
          (ho step rfl)).bind
        rintro more hmore _ ⟨⟩
        exact hmore
    · exact fun step hstep => by cases hstep

lemma trailers_parted (ih : (partedLaw s).Below (8 * size gs)) : (partedLaw s).trailers gs := by
  intro h start node hnode
  rw [trailers.eq_def]
  split
  · next p i rest =>
    split
    · next name _ _ =>
      refine (ih.trailers rest (by simp; omega) h.tail.tail start _ ?_).bind fun step hstep => hstep
      exact .of_kind rfl
        (List.forall_mem_cons.2 ⟨hnode, List.forall_mem_singleton.2 (parted_ident i name)⟩)
    · exact hnode
  · next o inner c rest =>
    refine Gives.bind (P := fun rs : List (Placed × Bool) => ∀ r ∈ rs, Parted s r.1.node) ?_
      fun args hargs => ?_
    · apply Gives.attach_mapM
      intro a ha
      have := Stretch.size_le_of_mem_split ha
      exact ih.argument a (by simp; omega) (h.inner.of_mem_split ha)
    refine (ih.trailers rest (by simp) h.tail start _ ?_).bind fun step hstep => hstep
    exact .of_kind rfl
      (List.forall_mem_cons.2 ⟨hnode, List.forall_mem_map.2 (List.forall_mem_map.2 hargs)⟩)
  · exact hnode

lemma argument_parted (ih : (partedLaw s).Below (8 * st.size + 2)) : (partedLaw s).argument st := by
  intro h
  rw [argument]
  split
  · exact (ih.expr st (by omega) h false).bind fun p hp => hp
  · next gs hd =>
    have hgs := eq_dropLast_of_dropEllipsis? hd
    split
    · exact .fail
    · next inner hi =>
      have hin : gs = inner.toList := Stretch.ofList?_eq_some_iff.1 hi
      have hsize : inner.size ≤ st.size := by
        have := size_dropLast_le st.toList
        rwa [← hgs, ← Stretch.size_of_ofList? hi] at this
      refine (ih.expr inner (by omega) ?_ false).bind fun p hp => hp
      rw [← hin, hgs]
      exact h.of_infix (List.dropLast_prefix _).isInfix

lemma exprs_parted (ih : (partedLaw s).Below (8 * size gs + 2)) : (partedLaw s).exprs gs := by
  intro h
  rw [exprs]
  apply Gives.attach_mapM
  intro st hst
  have := Stretch.size_le_of_mem_split hst
  exact ih.expr st (by omega) (h.of_mem_split hst) false

lemma varType_parted (ih : (partedLaw s).Below (8 * size gs + 2)) : (partedLaw s).varType gs := by
  intro h
  rw [varType]
  split
  · exact fun p hp => by cases hp
  · next st hst =>
    have hsize := Stretch.size_of_ofList? hst
    rw [Stretch.ofList?_eq_some_iff.1 hst] at h
    apply (ih.expr st (by omega) h false).bind
    rintro p hp _ ⟨⟩
    exact hp

lemma funcLit_parted (ih : (partedLaw s).Below (8 * size gs)) : (partedLaw s).funcLit gs := by
  intro h t
  rw [funcLit.eq_def]
  split
  · next o params c rest =>
    split
    · next bo inner bc after hsig =>
      have hs := suffix_of_signatureEnd hsig
      have hsize := size_le_of_suffix hs
      simp only [size_cons, weight_pair] at hsize
      apply (ih.funcType params (by simp; omega) h.inner o c).bind
      intro type htype
      apply (ih.block inner (by simp; omega) bo bc (h.tail.suffix hs).head).bind
      rintro body hb _ ⟨⟩
      exact .of_kind rfl (List.forall_mem_cons.2 ⟨htype, List.forall_mem_singleton.2 hb⟩)
    · exact fun step hstep => by cases hstep
  · exact fun step hstep => by cases hstep

def Param.Forall (P : Placed → Prop) : Param → Prop
  | .name ident => P ident
  | .typed _ ident type => P ident ∧ P type

lemma parted_fields {params : List Param} {pending : List Placed}
    (hp : ∀ p ∈ pending, Parted s p.node)
    (h : ∀ param ∈ params, param.Forall (Parted s ·.node)) :
    ∀ p ∈ (fields pending params).1, Parted s p.node := by
  induction params generalizing pending with
  | nil => simp [fields]
  | cons param params ih =>
    obtain ⟨hparam, hrest⟩ := List.forall_mem_cons.1 h
    cases param with
    | name ident =>
      rw [fields]
      exact ih (List.forall_mem_append.2 ⟨hp, List.forall_mem_singleton.2 hparam⟩) hrest
    | typed span ident type =>
      rw [fields]
      refine List.forall_mem_cons.2 ⟨.of_kind rfl ?_, ih (by simp) hrest⟩
      simp only [Shape.children, List.forall_mem_append, List.forall_mem_map,
        List.forall_mem_singleton]
      exact ⟨⟨hp, hparam.1⟩, hparam.2⟩

lemma readParam_parted (h : s.Has st.toList)
    (ih : ∀ type : Stretch, type.size < st.size → (partedLaw s).expr type) :
    Gives (Param.Forall (Parted s ·.node)) (readParam s st) := by
  unfold readParam
  split
  · next t name type hp =>
    rw [(of_paramName? hp).1] at h
    apply (ih type (size_lt_of_paramName? hp) h.tail false).bind
    exact fun p hp => ⟨parted_ident t name, hp⟩
  · split
    · next ident hi =>
      obtain ⟨t, name, -, -, rfl⟩ := of_singleIdent? hi
      exact parted_ident t name
    · exact .fail

lemma funcType_parted {inner : List TokenGroup} (ih : (partedLaw s).Below (8 * size inner + 2)) :
    (partedLaw s).funcType inner := by
  intro h o c
  rw [funcType_eq]
  dsimp only
  split
  · refine (Gives.mapM (Q := Param.Forall (Parted s ·.node)) fun st hst => ?_).bind
      fun params hparams => ?_
    · have hsize := Stretch.size_le_of_mem_split hst
      exact readParam_parted (h.of_mem_split hst) fun type htype => ih.expr type (by omega)
    · split
      · exact .of_kind rfl (List.forall_mem_map.2 (parted_fields (by simp) hparams))
      · exact .fail
  · refine (Gives.mapM (Q := (Parted s ·.node)) fun st hst => ?_).bind fun params hparams => ?_
    · have hsize := Stretch.size_le_of_mem_split hst
      apply (ih.expr st (by omega) (h.of_mem_split hst) false).bind
      exact fun p hp => .of_kind rfl (List.forall_mem_singleton.2 hp)
    · exact .of_kind rfl (List.forall_mem_map.2 hparams)

lemma rawNodes_parted (ih : (partedLaw s).Below (8 * size gs)) : (partedLaw s).rawNodes gs := by
  intro h after
  rw [rawNodes.eq_def]
  split
  · exact fun p hp => by cases hp
  · next t rest =>
    split
    · apply (ih.funcLit rest (by simp) h.tail t).bind
      intro o ho
      split
      · next step =>
        have hsize := size_le_of_suffix step.rest_suffix
        apply (ih.rawNodes step.rest (by simp; omega) (h.tail.suffix step.rest_suffix) false).bind
        intro ps hps
        exact List.forall_mem_cons.2 ⟨ho step rfl, hps⟩
      · exact ih.rawNodes rest (by simp) h.tail false
    · exact ih.rawNodes rest (by simp) h.tail _
  · next b o inner c rest =>
    apply (ih.rawNodes inner (by simp; omega) h.inner false).bind
    intro here hhere
    apply (ih.rawNodes rest (by simp) h.tail _).bind
    intro ps hps
    exact List.forall_mem_append.2 ⟨hhere, hps⟩

lemma parted_indented {p : Placed} (h : Parted s p.node) : Parted s (indented s.source p).node :=
  h.congr rfl rfl

lemma forall_parted {comments leads : List Comment} {o c : Token} {os : List Occupant}
    {slots : List Attach.Slot} {qs : List Placed} {lead : Option String}
    (h : Attach.Partition comments o c os leads slots qs lead)
    (hos : ∀ o ∈ os, Parted s o.stmt.node) : ∀ q ∈ qs, Parted s q.node := by
  intro q hq
  obtain ⟨p, ⟨o, ho, rfl⟩ | ⟨c, -, rfl⟩, hspan, hshape⟩ := h.mem hq
  · exact (hos o ho).congr hspan hshape
  · exact Parted.congr (.leaf rfl rfl) hspan hshape

lemma block_parted {inner : List TokenGroup} {line : Nat} (hr : Remarks line s.comments)
    (ih : (partedLaw s).Below (8 * size inner + 6)) : (partedLaw s).block inner := by
  intro o c h
  rw [block]
  refine .bind_of_ok fun os hos => ?_
  have hin : s.Within inner c := ⟨o, [], h⟩
  obtain ⟨a, b, hpair⟩ := h.holds
  have hscan := (Scanned.around [] ⟨.pair .curly o inner c, []⟩ hpair).2.1
  obtain ⟨leads, slots, hp⟩ := partition_block hr hpair hos
  have hparted := forall_parted hp ((ih.items inner (by omega) c hin).of_ok hos)
  refine .mk (fun _ => ?_) (by rintro ⟨⟩) (by rintro ⟨⟩) (.block h hos rfl rfl)
    (List.forall_mem_map.2 hparted)
  exact ⟨o, inner, c, os, leads, slots, _, _, hscan, hos, hp, rfl, rfl⟩

lemma expectEnd_gives : Gives (fun _ => True) (expectEnd gs) := by
  cases expectEnd gs <;> trivial

lemma items_parted (ih : (partedLaw s).Below (8 * size gs + 5)) : (partedLaw s).items gs := by
  intro closer h
  rw [items.eq_def]
  split
  · exact fun o ho => by cases ho
  · next g rest =>
    have hg := weight_pos g
    have htail : s.Within rest closer := h.suffix (List.suffix_cons g rest)
    split
    · exact ih.items rest (by simp; omega) closer htail
    · split
      · next hclause =>
        obtain ⟨t, rfl, -⟩ := of_isClause hclause
        apply (ih.clause rest (by simp) t closer hclause h).bind
        intro step hstep
        have hsize := size_le_of_suffix step.rest_suffix
        apply (ih.items step.rest (by simp; omega) closer (htail.suffix step.rest_suffix)).bind
        intro os hos
        exact List.forall_mem_cons.2 ⟨hstep, hos⟩
      · apply (ih.stmt ⟨g, rest⟩ (by simp) h.has closer).bind
        intro step hstep
        have hsize : size step.rest ≤ size rest := size_le_of_suffix step.rest_suffix
        apply expectEnd_gives.bind
        intro _ _
        apply (ih.items step.rest (by simp; omega) closer (htail.suffix step.rest_suffix)).bind
        intro os hos
        exact List.forall_mem_cons.2 ⟨parted_indented hstep, hos⟩

lemma clauseBody_parted (ih : (partedLaw s).Below (8 * size gs + 5)) :
    (partedLaw s).clauseBody gs := by
  intro h closer
  rw [clauseBody.eq_def]
  split
  · exact fun p hp => by cases hp
  · next g rest =>
    have hg := weight_pos g
    split
    · exact fun p hp => by cases hp
    · split
      · exact (ih.clauseBody rest (by simp; omega) h.tail closer).bind fun r hr => hr
      · apply (ih.stmt ⟨g, rest⟩ (by simp) h closer).bind
        intro step hstep
        have hsize : size step.rest ≤ size rest := size_le_of_suffix step.rest_suffix
        apply expectEnd_gives.bind
        intro _ _
        apply (ih.clauseBody step.rest (by simp; omega) (h.tail.suffix step.rest_suffix) closer).bind
        intro more hmore
        exact List.forall_mem_cons.2 ⟨parted_indented hstep, hmore⟩

lemma parted_withLead {header : Placed} (lead : Option String) (h : Parted s header.node) :
    Parted s (withLead header lead).node := by
  cases lead with
  | none => exact h
  | some text => exact h.congr rfl rfl

lemma clause_parted {line : Nat} (hr : Remarks line s.comments)
    (ih : (partedLaw s).Below (8 * size gs + 5)) : (partedLaw s).clause gs := by
  intro t closer ht h
  cases hstep : clause s t closer gs with
  | error e => trivial
  | ok step =>
    obtain ⟨colon, rest, nodes, body, qs, lead, hsince, hc, hnodes, hbody, hat, -, hnode⟩ :=
      of_clause hstep
    have hs : .leaf colon :: rest <:+ gs := hsince ▸ since_suffix _ _
    have hsize := size_le_of_suffix hs
    have hupTo := size_upTo_le (isOp .colon) gs
    rw [size_cons, weight_leaf] at hsize
    obtain ⟨-, hgs⟩ := of_since hsince
    have hin : s.Within (.leaf colon :: rest) closer := h.suffix (hs.trans (List.suffix_cons _ _))
    have hparted := (ih.rawNodes _ (by omega) (h.has.tail.upTo (isOp .colon)) false).of_ok hnodes
    obtain ⟨leads, slots, hp⟩ := partition_clause hr hin.encloses hbody
    rw [hat] at hp
    have hstmts := (ih.clauseBody rest (by omega) hin.has.tail closer).of_ok hbody
    have hqs := forall_parted hp (List.forall_mem_map.2 hstmts)
    have hheader : Parted s (raw s.source (.ofTokens t colon) .rawExpr nodes).node :=
      parted_raw (fun _ => rfl) (fun _ => rfl) hparted
    have hread : step.node.node.IsRead s := .clause h ht hstep rfl rfl
    obtain ⟨node, after, hsuffix⟩ := step
    obtain rfl : node = _ := hnode
    refine .mk (by rintro ⟨⟩) (fun _ => ?_) (fun _ => ?_) hread
      (List.forall_mem_cons.2 ⟨parted_withLead _ hheader, List.forall_mem_map.2 hqs⟩)
    · exact ⟨t, colon, closer, gs, rest, body, leads, slots, _, _, _, h.encloses, ht, hsince, hbody,
        hp, rfl, rfl⟩
    · obtain ⟨a, b, hscan⟩ := h.has.holds
      rw [hgs] at hscan
      exact isHeadedIn hr hscan hc hnodes hp

lemma stmt_parted (ih : (partedLaw s).Below (8 * st.size + 4)) : (partedLaw s).stmt st := by
  intro h closer
  obtain ⟨g, gs⟩ := st
  have htail : size gs < (⟨g, gs⟩ : Stretch).size := Stretch.size_tail_lt ⟨g, gs⟩
  rw [stmt]
  dsimp only
  split
  · next o inner c =>
    apply (ih.block inner (by simp; omega) o c h.head).bind
    exact fun p hp => hp
  · exact ih.simple _ (by simp) h
  · next t =>
    split
    · next name hl =>
      split
      · next colon rest =>
        split
        · next hc =>
          apply (ih.labeled rest (by simp; omega) closer t name colon h hl
            (by simpa [Token.isOp] using hc)).bind
          exact fun step hstep => hstep
        · exact (ih.simple _ (by simp) h).bind fun step hstep => hstep
      · exact (ih.simple _ (by simp) h).bind fun step hstep => hstep
    · exact ih.ifStmt gs (by omega) h.tail t closer
    · exact ih.forStmt gs (by omega) h.tail t closer
    · exact ih.bodyStmt gs (by omega) h.tail t closer
    · exact ih.bodyStmt gs (by omega) h.tail t closer
    · split
      · exact ih.rawStmt _ (by simp) h
      · exact ih.varStmt gs (by omega) h.tail t closer
    · exact ih.simple _ (by simp) h
    · exact ih.rawStmt _ (by simp) h
    · exact ih.simple _ (by simp) h

lemma labeled_parted (ih : (partedLaw s).Below (8 * size gs + 5)) : (partedLaw s).labeled gs := by
  intro closer t name colon h ht hc
  rw [labeled.eq_def]
  have hname : Parted s (Placed.ident t name).node := parted_ident t name
  have hbare : Parted s (Placed.node
      { span := .ofTokens t colon, shape := .labeled (Placed.ident t name).node none }) :=
    .mk (by rintro ⟨⟩) (by rintro ⟨⟩) (by rintro ⟨⟩) (.label h ht hc rfl rfl)
      (List.forall_mem_singleton.2 hname)
  split
  · exact hbare
  · next g rest =>
    split
    · exact hbare
    · next hg =>
      refine .bind_of_ok fun step hstep => ?_
      have hin := (ih.stmt ⟨g, rest⟩ (by simp) h.tail.tail closer).of_ok hstep
      exact .mk (by rintro ⟨⟩) (by rintro ⟨⟩) (by rintro ⟨⟩)
        (.labeled h ht hc (by simpa using hg) hstep rfl rfl)
        (List.forall_mem_cons.2 ⟨hname, List.forall_mem_singleton.2 (parted_indented hin)⟩)

lemma rawStmt_parted (ih : (partedLaw s).Below (8 * st.size + 1)) : (partedLaw s).rawStmt st := by
  intro h
  have hsize := st.size_statement_le
  rw [rawStmt]
  apply (ih.rawNodes st.statement.toList (by simp; omega) h.statement false).bind
  intro nodes hn
  exact parted_raw (fun _ => rfl) (fun _ => rfl) hn

lemma has_body (b : Body gs) (h : s.Has gs) :
    s.Has b.before ∧ s.Has [.pair .curly b.opener b.inner b.closer] ∧ s.Has b.after := by
  rw [b.eq] at h
  have hin := h.suffix (List.suffix_append b.before _)
  exact ⟨h.of_infix (List.prefix_append b.before _).isInfix, hin.head, hin.tail⟩

lemma bodyStmt_parted (ih : (partedLaw s).Below (8 * size gs)) : (partedLaw s).bodyStmt gs := by
  intro h t closer
  rw [bodyStmt]
  split
  · exact .fail
  · next b _ =>
    have hsize := b.size_eq
    obtain ⟨hbefore, hblock, -⟩ := has_body b h
    apply (ih.rawNodes b.before (by omega) hbefore false).bind
    intro header hheader
    apply (ih.block b.inner (by omega) b.opener b.closer hblock).bind
    intro body hbody
    exact parted_raw (fun _ => rfl) (fun _ => rfl)
      (List.forall_mem_append.2 ⟨hheader, List.forall_mem_singleton.2 hbody⟩)

lemma ifStmt_parted (ih : (partedLaw s).Below (8 * size gs)) : (partedLaw s).ifStmt gs := by
  intro h t closer
  rw [ifStmt]
  split
  · exact .fail
  · next b _ =>
    have hsize := b.size_eq
    obtain ⟨hbefore, hblock, hafter⟩ := has_body b h
    apply (ih.rawNodes b.before (by omega) hbefore false).bind
    intro header hheader
    apply (ih.block b.inner (by omega) b.opener b.closer hblock).bind
    intro body hbody
    have hend (more : List Placed) (last : Placed) (hmore : ∀ p ∈ more, Parted s p.node) :
        Parted s (raw s.source ((Span.ofToken t).through last.span) .rawStmt
          (header ++ body :: more)).node :=
      parted_raw (fun _ => rfl) (fun _ => rfl)
        (List.forall_mem_append.2 ⟨hheader, List.forall_mem_cons.2 ⟨hbody, hmore⟩⟩)
    split
    · exact hend [] body (by simp)
    · next g rest ha =>
      rw [ha] at hafter hsize
      split
      · split
        · next i more =>
          split
          · apply (ih.ifStmt more (by simp at hsize; omega) hafter.tail.tail i closer).bind
            intro step hstep
            exact hend [step.node] step.node (List.forall_mem_singleton.2 hstep)
          · exact .fail
        · next o inner c more =>
          apply (ih.block inner (by simp at hsize; omega) o c hafter.tail.head).bind
          intro alt halt
          exact hend [alt] alt (List.forall_mem_singleton.2 halt)
        · exact .fail
      · exact hend [] body (by simp)

lemma parted_option {o : Option Placed} (h : ∀ p ∈ o, Parted s p.node) :
    ∀ m ∈ (o.map Placed.node).toList, Parted s m := by
  cases o with
  | none => simp
  | some p => exact List.forall_mem_singleton.2 (h p rfl)

lemma forStmt_parted (ih : (partedLaw s).Below (8 * size gs + 4)) : (partedLaw s).forStmt gs := by
  intro h t closer
  rw [forStmt]
  split
  · exact .fail
  · next b _ =>
    have hsize := b.size_eq
    obtain ⟨hbefore, hblock, -⟩ := has_body b h
    dsimp only
    split
    · exact ih.bodyStmt gs (by omega) h t closer
    · next range operand hr =>
      have hs : operand <:+ b.before :=
        (List.suffix_cons range operand).trans (hr ▸ since_suffix _ _)
      have hoperand := size_le_of_suffix hs
      have hupTo := size_upTo_le (isKeyword .kwRange) b.before
      apply (ih.rangeVars _ (by omega) (hbefore.upTo (isKeyword .kwRange)) gs).bind
      rintro ⟨tok, names⟩ hnames
      dsimp only
      split
      · exact .fail
      · next st hst =>
        have hx : s.Has st.toList := Stretch.ofList?_eq_some_iff.1 hst ▸ hbefore.suffix hs
        have hsizest := Stretch.size_of_ofList? hst
        apply (ih.expr st (by omega) hx false).bind
        intro x hx
        apply (ih.block b.inner (by omega) b.opener b.closer hblock).bind
        intro body hbody
        refine .of_kind rfl ?_
        refine List.forall_mem_append.2 ⟨List.forall_mem_append.2 ⟨?_, ?_⟩, ?_⟩
        · exact parted_option fun p hp => hnames p (List.mem_of_mem_head? hp)
        · exact parted_option fun p hp => hnames p (List.mem_of_mem_tail (List.mem_of_mem_head? hp))
        · exact List.forall_mem_cons.2 ⟨hx, List.forall_mem_singleton.2 hbody⟩

lemma rangeVars_parted {bound : List TokenGroup} (ih : (partedLaw s).Below (8 * size bound + 3)) :
    (partedLaw s).rangeVars bound := by
  intro h gs
  rw [rangeVars]
  split
  · exact fun p hp => by cases hp
  · have hsize := size_dropLast_le bound
    split
    · apply (ih.exprs bound.dropLast (by omega)
        (h.of_infix (List.dropLast_prefix _).isInfix)).bind
      intro names hnames
      split
      · exact .fail
      · exact hnames
    · exact .fail

lemma identifier_parted {t : Token} : Gives (Parted s ·.node) (identifier t) := by
  unfold identifier
  split
  · exact parted_ident _ _
  · exact .fail

lemma varNames_parted {follow : Token} :
    Gives (fun r => ∀ p ∈ r.1, Parted s p.node) (varNames follow gs) := by
  induction gs using varNames.induct with
  | case1 => exact .fail
  | case2 g => exact identifier_parted.bind fun ident hident => List.forall_mem_singleton.2 hident
  | case3 g sep gs ih =>
    rw [varNames]
    apply identifier_parted.bind
    intro ident hident
    split
    · apply ih.bind
      exact fun r hr => List.forall_mem_cons.2 ⟨hident, hr⟩
    · exact List.forall_mem_singleton.2 hident

lemma varStmt_parted (ih : (partedLaw s).Below (8 * size gs + 4)) : (partedLaw s).varStmt gs := by
  intro h t closer
  rw [varStmt]
  split
  · trivial
  · next names rest hok =>
    have hnames := (varNames_parted (s := s)).of_ok hok
    have hrest : s.Has rest := (h.upTo isSemicolon).suffix (suffix_of_varNames hok)
    have h₁ := size_le_of_suffix (suffix_of_varNames hok)
    have h₂ := size_upTo_le isSemicolon gs
    have h₃ := size_upTo_le (isOp .assign) rest
    have hs := (List.tail_suffix _).trans (since_suffix (isOp .assign) rest)
    have h₄ := size_le_of_suffix hs
    apply (ih.varType (upTo (isOp .assign) rest) (by omega) (hrest.upTo _)).bind
    intro type htype
    apply (ih.exprs (since (isOp .assign) rest).tail (by omega) (hrest.suffix hs)).bind
    intro values hvalues
    refine .of_kind rfl ?_
    simp only [Shape.children, List.forall_mem_append, List.forall_mem_map]
    exact ⟨⟨hnames, parted_option htype⟩, hvalues⟩

lemma simple_parted (ih : (partedLaw s).Below (8 * st.size + 3)) : (partedLaw s).simple st := by
  intro h
  have hsize := st.size_statement_le
  have hupTo := size_upTo_le isTurn st.statement.toList
  have hin := h.statement
  rw [simple]
  dsimp only
  split
  · apply (ih.expr st.statement (by omega) hin false).bind
    exact fun x hx => .of_kind rfl (List.forall_mem_singleton.2 hx)
  · next turn right ht =>
    have hs : turn :: right <:+ st.statement.toList := ht ▸ since_suffix _ _
    have hright := size_le_of_suffix ((List.suffix_cons turn right).trans hs)
    rw [Stretch.size_toList] at hright hupTo
    split
    · exact ih.rawStmt st (by omega) h
    · exact ih.rawStmt st (by omega) h
    · exact ih.rawStmt st (by omega) h
    · apply (ih.exprs _ (by omega) (hin.upTo isTurn)).bind
      intro lhs hl
      apply (ih.exprs right (by omega) (hin.suffix hs).tail).bind
      intro rhs hr
      split
      · exact .fail
      · exact .of_kind rfl
          (List.forall_mem_append.2 ⟨List.forall_mem_map.2 hl, List.forall_mem_map.2 hr⟩)

end

theorem partedLaw_inductive {line : Nat} (hr : Remarks line s.comments) :
    (partedLaw s).Inductive where
  expr _ := expr_parted
  primary _ := primary_parted
  trailers _ := trailers_parted
  argument _ := argument_parted
  funcLit _ := funcLit_parted
  funcType _ := funcType_parted
  rawNodes _ := rawNodes_parted
  block _ := block_parted hr
  items _ := items_parted
  clause _ := clause_parted hr
  clauseBody _ := clauseBody_parted
  stmt _ := stmt_parted
  labeled _ := labeled_parted
  rawStmt _ := rawStmt_parted
  bodyStmt _ := bodyStmt_parted
  ifStmt _ := ifStmt_parted
  forStmt _ := forStmt_parted
  rangeVars _ := rangeVars_parted
  varStmt _ := varStmt_parted
  varType _ := varType_parted
  exprs _ := exprs_parted
  simple _ := simple_parted

end ParallelTests.Parser
