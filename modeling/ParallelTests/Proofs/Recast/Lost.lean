import ParallelTests.Proofs.Recast.Tree

/-!
The comments that a printed tree leaves out. They are those between a label and its statement, and no
block or clause has such a comment among its own.
-/

namespace ParallelTests

open Scan TokenGroup Attach

variable {src : List Char} {lost : Nat → Prop} {a b x : Nat} {n c d : Node} {ns : List Node}

/-! ### Nodes that stand inside each other -/

namespace Node

lemma exists_of_labeled (hk : n.kind = .labeled) : ∃ label inside, n.shape = .labeled label inside := by
  rw [kind] at hk
  cases hs : n.shape with
  | labeled label inside => exact ⟨label, inside, rfl⟩
  | _ =>
    rw [hs] at hk
    cases hk

inductive Ranged : Nat → List Node → Nat → Prop
  | nil {a b : Nat} (h : a ≤ b) : Ranged a [] b
  | hidden {a b : Nat} {n : Node} {ns : List Node} (hn : n.isShown = false) (h : Ranged a ns b) :
      Ranged a (n :: ns) b
  | shown {a b : Nat} {n : Node} {ns : List Node} {span : Span} (hs : n.span = some span)
      (ha : a ≤ span.start) (hle : span.start ≤ span.stop) (h : Ranged span.stop ns b) :
      Ranged a (n :: ns) b

namespace Ranged

lemma le (h : Ranged a ns b) : a ≤ b := by
  induction h with
  | nil h => exact h
  | hidden _ _ ih => exact ih
  | shown _ ha hle _ ih => exact (ha.trans hle).trans ih

lemma from_left (h : Ranged a ns b) {a' : Nat} (ha : a' ≤ a) : Ranged a' ns b := by
  induction h with
  | nil h => exact .nil (ha.trans h)
  | hidden hn _ ih => exact .hidden hn (ih ha)
  | shown hs ha' hle h => exact .shown hs (ha.trans ha') hle h

lemma to_right (h : Ranged a ns b) {b' : Nat} (hb : b ≤ b') : Ranged a ns b' := by
  induction h with
  | nil h => exact .nil (h.trans hb)
  | hidden hn _ ih => exact .hidden hn (ih hb)
  | shown hs ha hle _ ih => exact .shown hs ha hle (ih hb)

lemma tighten {ps : List Placed} (h : Ranged a (ps.map Placed.node) b)
    (hs : ∀ p ∈ ps, p.node.isShown = true) :
    Ranged a (ps.map Placed.node) ((ps.getLast?.map (·.span.stop)).getD a) := by
  induction ps generalizing a with
  | nil => exact .nil (Nat.le_refl _)
  | cons p ps ih =>
    obtain ⟨hp, hps⟩ := List.forall_mem_cons.1 hs
    cases h with
    | hidden hn => exact absurd hp (by simp [hn])
    | shown hspan ha hle h =>
      cases hspan
      refine .shown rfl ha hle ?_
      have := ih h hps
      rw [List.getLast?_cons]
      cases hlast : ps.getLast? with
      | none => simpa [hlast] using this
      | some q => simpa [hlast] using this

lemma inside (h : Ranged a ns b) : ∀ c ∈ ns, c.isShown = true →
    ∃ span, c.span = some span ∧ a ≤ span.start ∧ span.start ≤ span.stop ∧ span.stop ≤ b := by
  induction h with
  | nil => simp
  | hidden hn _ ih =>
    exact List.forall_mem_cons.2 ⟨fun hc => absurd hc (by simp [hn]), ih⟩
  | shown hs ha hle h ih =>
    refine List.forall_mem_cons.2 ⟨fun _ => ⟨_, hs, ha, hle, h.le⟩, fun c hc hn => ?_⟩
    obtain ⟨span, hspan, hstart, hbounds⟩ := ih c hc hn
    exact ⟨span, hspan, (ha.trans hle).trans hstart, hbounds⟩

lemma eq_of_mem (h : Ranged a ns b) {s t : Span} (hc : c ∈ ns) (hd : d ∈ ns) (hcn : c.isShown = true)
    (hdn : d.isShown = true) (hcs : c.span = some s) (hds : d.span = some t)
    (hs : s.start ≤ x ∧ x < s.stop) (ht : t.start ≤ x ∧ x < t.stop) : c = d := by
  induction h with
  | nil => cases hc
  | hidden hn _ ih =>
    refine ih ((List.mem_cons.1 hc).resolve_left ?_) ((List.mem_cons.1 hd).resolve_left ?_)
    · rintro rfl
      exact absurd hcn (by simp [hn])
    · rintro rfl
      exact absurd hdn (by simp [hn])
  | @shown _ _ n ns span hspan ha hle h ih =>
    have hbehind {e : Node} {u : Span} (he : e ∈ ns) (hen : e.isShown = true) (hu : e.span = some u) :
        span.stop ≤ u.start := by
      obtain ⟨_, hu', hle', -⟩ := h.inside e he hen
      obtain rfl := Option.some.inj (hu.symm.trans hu')
      exact hle'
    rcases List.mem_cons.1 hc with rfl | hc' <;> rcases List.mem_cons.1 hd with rfl | hd'
    · rfl
    · obtain rfl := Option.some.inj (hcs.symm.trans hspan)
      have := hbehind hd' hdn hds
      omega
    · obtain rfl := Option.some.inj (hds.symm.trans hspan)
      have := hbehind hc' hcn hcs
      omega
    · exact ih hc' hd'

end Ranged

inductive Nests : Node → Prop
  | mk {n : Node} {span : Span} (hs : n.span = some span) (h : Ranged span.start n.children span.stop)
      (hl : ∀ label inside, n.shape = .labeled label (some inside) → inside.isShown = true)
      (hc : ∀ c ∈ n.children, c.isShown = true → Nests c) : Nests n

lemma Nests.congr {m : Node} (h : n.Nests) (hspan : m.span = n.span) (hshape : m.shape = n.shape) :
    m.Nests := by
  cases h with
  | mk hs h hl hc =>
    have hchildren : m.children = n.children := congrArg Shape.children hshape
    exact .mk (hspan.trans hs) (hchildren ▸ h) (hshape ▸ hl) (hchildren ▸ hc)

/-! ### What is lost -/

inductive Drops (x : Nat) : Node → Prop
  | label {n label : Node} {inside : Option Node} {span : Span} (hs : n.shape = .labeled label inside)
      (hn : n.span = some span) (h : span.start ≤ x)
      (h' : x < ((inside.bind Node.span).map Span.start).getD span.stop) : Drops x n
  | child {n c : Node} (hc : c ∈ n.children) (hn : c.isShown = true) (h : Drops x c) : Drops x n

lemma Nests.of_drops (h : n.Nests) (hd : n.Drops x) :
    ∃ span, n.span = some span ∧ span.start ≤ x ∧ x < span.stop := by
  induction hd with
  | @label n label inside span hs hn hx hx' =>
    refine ⟨span, hn, hx, hx'.trans_le ?_⟩
    cases h with
    | mk hs' h hl =>
      obtain rfl := Option.some.inj (hn.symm.trans hs')
      cases inside with
      | none => exact Nat.le_refl _
      | some inside =>
        obtain ⟨s, hspan, -, hle, hstop⟩ := h.inside inside (by simp [children, hs, Shape.children])
          (hl _ _ hs)
        simpa [hspan] using hle.trans hstop
  | @child n c hc hn _ ih =>
    cases h with
    | mk hs h _ hnests =>
      obtain ⟨s, hspan, hx, hx'⟩ := ih (hnests c hc hn)
      obtain ⟨s', hspan', hstart, -, hstop⟩ := h.inside c hc hn
      obtain rfl := Option.some.inj (hspan.symm.trans hspan')
      exact ⟨_, hs, hstart.trans hx, hx'.trans_le hstop⟩

inductive Keeps (lost : Nat → Prop) : Node → Prop
  | hidden {n : Node} (h : n.isShown = false) : Keeps lost n
  | labeled {n label : Node} {inside : Option Node} (hs : n.shape = .labeled label inside)
      (h : ∀ c ∈ inside, Keeps lost c) : Keeps lost n
  | shown {n : Node} (hk : n.kind ≠ .labeled)
      (own : ∀ span ∈ n.span, ∀ x, span.start ≤ x → x < span.stop →
        (∀ c ∈ n.children, c.isShown = true → ∀ s ∈ c.span, ¬(s.start ≤ x ∧ x < s.stop)) → ¬lost x)
      (hc : ∀ c ∈ n.children, Keeps lost c) : Keeps lost n

lemma Nests.keeps (h : n.Nests) (hd : ∀ span ∈ n.span, ∀ x, span.start ≤ x → x < span.stop → lost x →
    n.Drops x) : n.Keeps lost := by
  induction h with
  | @mk n span hs h hl hc ih =>
    -- what is lost in a child is lost there only
    have hchild (c : Node) (hmem : c ∈ n.children) (hn : c.isShown = true)
        (hlabel : ∀ label inside, n.shape = .labeled label inside → inside = some c) :
        c.Keeps lost := by
      obtain ⟨s, hspan, hstart, -, hstop⟩ := h.inside c hmem hn
      refine ih c hmem hn fun s' hs' x hx hx' hlost => ?_
      obtain rfl := Option.some.inj (hspan.symm.trans hs')
      cases hd span hs x (hstart.trans hx) (hx'.trans_le hstop) hlost with
      | label hshape hn' h h' =>
        obtain rfl := hlabel _ _ hshape
        simp [hspan] at h'
        omega
      | @child _ d hd' hdn hdrops =>
        obtain ⟨t, hdspan, ht⟩ := (hc d hd' hdn).of_drops hdrops
        exact h.eq_of_mem hmem hd' hn hdn hspan hdspan ⟨hx, hx'⟩ ht ▸ hdrops
    by_cases hk : n.kind = .labeled
    · obtain ⟨label, inside, hshape⟩ := exists_of_labeled hk
      refine .labeled hshape fun c hmem => ?_
      obtain rfl : inside = some c := hmem
      refine hchild c (by simp [children, hshape, Shape.children]) (hl _ _ hshape) fun label' inside' h => ?_
      cases hshape.symm.trans h
      rfl
    · have hlabel (label : Node) (inside : Option Node) : n.shape ≠ .labeled label inside :=
        fun h => hk (congrArg Shape.kind h)
      refine .shown hk (fun s' hs' x hx hx' hout hlost => ?_) fun c hmem => ?_
      · cases hd s' hs' x hx hx' hlost with
        | label hshape => exact hlabel _ _ hshape
        | child hmem hn hdrops =>
          obtain ⟨t, hspan, ht⟩ := (hc _ hmem hn).of_drops hdrops
          exact hout _ hmem hn t hspan ht
      · cases hn : c.isShown with
        | false => exact .hidden hn
        | true => exact hchild c hmem hn fun label inside h => absurd h (hlabel _ _)

namespace Keeps

lemma of_none (n : Node) : n.Keeps fun _ => False := by
  induction hw : n.weight using Nat.strongRecOn generalizing n with
  | ind w ih =>
    subst hw
    by_cases hk : n.kind = .labeled
    · obtain ⟨label, inside, hshape⟩ := exists_of_labeled hk
      refine .labeled hshape fun c hmem => ?_
      obtain rfl : inside = some c := hmem
      exact ih _ (weight_lt_of_mem_children (by simp [children, hshape, Shape.children])) c rfl
    · exact .shown hk (fun _ _ _ _ _ _ h => h) fun c hc => ih _ (weight_lt_of_mem_children hc) c rfl

lemma children (h : n.Keeps lost) (hn : n.isShown = true) (hk : n.kind ≠ .labeled) :
    ∀ c ∈ n.children, c.Keeps lost := by
  cases h with
  | hidden h => exact absurd hn (by simp [h])
  | labeled hs => exact absurd (congrArg Shape.kind hs) hk
  | shown _ _ hc => exact hc

lemma own (h : n.Keeps lost) (hn : n.isShown = true) (hk : n.kind ≠ .labeled) :
    ∀ span ∈ n.span, ∀ x, span.start ≤ x → x < span.stop →
      (∀ c ∈ n.children, c.isShown = true → ∀ s ∈ c.span, ¬(s.start ≤ x ∧ x < s.stop)) → ¬lost x := by
  cases h with
  | hidden h => exact absurd hn (by simp [h])
  | labeled hs => exact absurd (congrArg Shape.kind hs) hk
  | shown _ own _ => exact own

lemma inside {label : Node} {inside : Option Node} (h : n.Keeps lost)
    (hs : n.shape = .labeled label inside) : ∀ c ∈ inside, c.Keeps lost := by
  cases h with
  | hidden h => simp [isShown, kind, hs, Shape.kind, Kind.hasBody] at h
  | labeled hs' h =>
    cases hs.symm.trans hs'
    exact h
  | shown hk => exact absurd (congrArg Shape.kind hs) hk

lemma congr {m : Node} (h : n.Keeps lost) (hspan : m.span = n.span) (hshape : m.shape = n.shape)
    (hn : m.isShown = n.isShown) : m.Keeps lost := by
  have hchildren : m.children = n.children := congrArg Shape.children hshape
  cases h with
  | hidden h => exact .hidden (hn.trans h)
  | labeled hs h => exact .labeled (hshape.trans hs) h
  | shown hk own hc =>
    refine .shown (by rwa [kind, hshape]) ?_ (hchildren ▸ hc)
    rw [hspan, hchildren]
    exact own

end Keeps

end Node

/-! ### Trees that are read from a source -/

lemma Weaves.ranged {ps : List Piece} {k : Nat} (h : Weaves src ns a ps b)
    (hc : ps.filterMap Piece.child? = List.range' k (ns.length - k)) :
    Node.Ranged a (ns.drop k) b := by
  induction h generalizing k with
  | nil =>
    have hle : ns.length ≤ k := by
      have := congrArg List.length hc
      simp at this
      omega
    rw [List.drop_eq_nil_of_le hle]
    exact .nil (Nat.le_refl _)
  | text hle _ ih => exact (ih hc).from_left hle
  | @child i b n span ps hi hs hlt hps ih =>
    simp only [List.filterMap_cons, Piece.child?] at hc
    obtain ⟨m, hm⟩ : ∃ m, ns.length - k = m + 1 := Nat.exists_eq_succ_of_ne_zero fun h => by
      simp [h] at hc
    rw [hm, List.range'_succ, List.cons.injEq] at hc
    obtain ⟨rfl, hc⟩ := hc
    rw [List.drop_eq_getElem?_toList_append, hi]
    refine .shown hs (Nat.le_refl _) hlt.le (ih ?_)
    rw [hc]
    congr 1
    omega

lemma isShown_of_isSilent (h : Woven src n) (hk : n.kind.isSilent = true) : n.isShown = false := by
  have hb := h.formed.backed
  cases hp : n.pieces with
  | none => cases hkind : n.kind <;> simp_all [Node.isShown, Kind.hasBody, Kind.isSilent]
  | some ps =>
    rw [Node.Backed, hp] at hb
    cases hkind : n.kind <;> simp_all [Kind.isSilent, Kind.isWoven]

lemma Woven.nests {ps : List Piece} (h : Woven src n) (hp : n.pieces = some ps)
    (hk : n.kind ≠ .labeled) (hc : ∀ c ∈ n.children, c.isShown = true → c.Nests) : n.Nests := by
  obtain ⟨span, hs, hw⟩ := h.isWoven ps hp
  have hb := h.formed.backed
  rw [Node.Backed, hp] at hb
  obtain ⟨-, -, k, hpieces, hsilent⟩ := hb
  have hranged := hw.ranged hpieces
  refine .mk hs ?_ (fun label inside h => absurd (congrArg Shape.kind h) hk) hc
  rw [← List.take_append_drop k n.children]
  have hhidden : ∀ c ∈ n.children.take k, c.isShown = false := by
    intro c hmem
    cases h with
    | mk _ _ _ hwoven => exact isShown_of_isSilent (hwoven c (List.mem_of_mem_take hmem)) (hsilent c hmem)
    | clause _ _ hn => cases hn.symm.trans hp
  generalize n.children.take k = cs at hhidden
  induction cs with
  | nil => exact hranged
  | cons c cs ih =>
    obtain ⟨hn, hcs⟩ := List.forall_mem_cons.1 hhidden
    exact .hidden hn (ih hcs)

lemma Rows.ranged {fresh : Bool} {gs : List TokenGroup} {ps : List Placed} (h : Rows src fresh gs ps)
    (hs : Scanned src a gs b) : Node.Ranged a (ps.map Placed.node) b := by
  induction h generalizing a with
  | nil => exact .nil hs.le
  | @cons _ _ sems _ st _ _ _ _ hp _ _ ih =>
    obtain ⟨hpre, hst, hrest⟩ := hs.around sems st
    refine .shown rfl ?_ ?_ ?_ <;> rw [hp.span_eq]
    · exact hpre.le
    · exact hst.le
    · exact ih hrest

lemma Node.Ranged.fill {slots : List Slot} {qs : List Placed} (hf : List.Forall₂ Slot.Fills slots qs)
    (h : Ranged a ((slots.filterMap (·.entry.stmt?)).map Placed.node) b) :
    Ranged a (qs.map Placed.node) b := by
  induction hf generalizing a with
  | nil => exact h
  | @cons slot q _ _ hq _ ih =>
    obtain ⟨entry, cs⟩ := slot
    obtain ⟨blank, rfl⟩ := hq
    cases entry with
    | comment c => exact .hidden rfl (ih h)
    | stmt p =>
      simp only [List.filterMap_cons, Attach.Entry.stmt?, List.map_cons] at h
      cases h with
      | hidden hn h => exact .hidden hn (ih h)
      | shown hs ha hle h => exact .shown hs ha hle (ih h)

variable {s : TokenStream} {line : Nat}

lemma nests_block (hr : Remarks line s.comments) {o c : Token} {inner : List TokenGroup}
    {os : List Occupant} (h : s.Has [.pair .curly o inner c]) (hos : Parser.items s c inner = .ok os)
    (hspan : n.span = some (.ofTokens o c))
    (hshape : n.shape = .block ((attach s.comments o c os).1.map Placed.node) (o.line = c.line)
      (attach s.comments o c os).2)
    (hc : ∀ c ∈ n.children, c.isShown = true → c.Nests) : n.Nests := by
  obtain ⟨a, b, hscan⟩ := h.holds
  obtain ⟨core, sems, hinner, -, hrows, -, -⟩ :=
    (Parser.specs hr _).items (Nat.lt_succ_self _) hscan.inner hos
  obtain ⟨leads, slots, hpart⟩ := Parser.partition_block hr hscan hos
  have hin := hscan.inner
  rw [hinner] at hin
  have hranged := (hrows.ranged hin.left).to_right (hscan.brackets.2.lt.le)
  rw [← hpart.stmts] at hranged
  refine .mk hspan ?_ (fun label inside h => ?_) hc
  · rw [Node.children, hshape]
    exact (Node.Ranged.fill hpart.fills hranged).from_left hscan.brackets.1.lt.le
  · cases hshape.symm.trans h

lemma nests_clause (hr : Remarks line s.comments) {t closer : Token} {gs : List TokenGroup}
    {step : Parser.Step gs} (h : s.Within (.leaf t :: gs) closer)
    (hstep : Parser.clause s t closer gs = .ok step) (hspan : n.span = some step.node.span)
    (hshape : n.shape = step.node.shape) (hc : ∀ c ∈ n.children, c.isShown = true → c.Nests) : n.Nests := by
  obtain ⟨colon, rest, nodes, body, qs, lead, hsince, hcolon, hnodes, hbody, hat, -, hnode⟩ :=
    Parser.of_clause hstep
  have hrest : .leaf colon :: rest <:+ gs := hsince ▸ since_suffix _ _
  have hwithin := h.suffix (hrest.trans (List.suffix_cons _ _))
  obtain ⟨a, b, hscan⟩ := hwithin.has.holds
  obtain ⟨core, sems, hsplit, -, hrows, -, -, hk⟩ :=
    (Parser.specs hr _).clauseBody (Nat.lt_succ_self _) hscan.behind hbody
  obtain ⟨leads, slots, hpart⟩ := Parser.partition_clause hr hwithin.encloses hbody
  rw [hat] at hpart
  have hcore := hscan.behind
  rw [hsplit] at hcore
  have hshown : ∀ p ∈ body.nodes, p.node.isShown = true := by
    intro p hp
    obtain ⟨st, hst⟩ := hrows.stands p hp
    exact hst.isShown
  have hranged := ((hrows.ranged hcore.left).tighten hshown)
  have hstmts : slots.filterMap (·.entry.stmt?) = body.nodes := by
    rw [hpart.stmts, List.map_map]
    exact List.map_id _
  rw [← hstmts] at hranged
  have hle : t.start ≤ colon.stop := by
    obtain ⟨a, b, hgs⟩ := h.has.holds
    obtain ⟨ys, rfl⟩ := hrest
    have hcolon' : colon ∈ tokens (ys ++ .leaf colon :: rest) := by simp
    exact ((hgs.chain.mem (t := t) (by simp)).2.2.trans (hgs.behind.bounds colon hcolon').1).trans
      (hgs.chain.mem (t := colon) (by simp)).2.2
  generalize hheader : Parser.raw s.source (.ofTokens t colon) .rawExpr nodes = header at hnode
  have hheaderSpan : (Parser.withLead header lead).span = .ofTokens t colon := by
    rw [← hheader]
    cases lead <;> rfl
  have hstop : step.node.span.stop = (body.nodes.getLast?.map (·.span.stop)).getD colon.stop := by
    rw [hnode]
    dsimp only [Span.through]
    rw [List.getLastD_eq_getLast?]
    cases body.nodes.getLast? with
    | none => simp [hheaderSpan, Span.ofTokens]
    | some p => rfl
  have hchildren : n.children = (Parser.withLead header lead).node :: qs.map Placed.node := by
    rw [Node.children, hshape, hnode]
    rfl
  refine .mk hspan ?_ (fun label inside h => ?_) hc
  · rw [hchildren]
    refine .shown (congrArg some hheaderSpan) ?_ hle ?_
    · rw [hnode]
      exact Nat.le_refl _
    · rw [hstop, ← hstmts]
      exact Node.Ranged.fill hpart.fills hranged
  · rw [hnode] at hshape
    cases hshape.symm.trans h

lemma nests_labeled (hr : Remarks line s.comments) {t colon closer : Token} {g : TokenGroup}
    {gs : List TokenGroup} {name : String} {step : Parser.Step gs}
    (h : s.Has (.leaf t :: .leaf colon :: g :: gs)) (hg : g.isSemicolon = false)
    (hstep : Parser.stmt s closer ⟨g, gs⟩ = .ok step)
    (hspan : n.span = some ((Span.ofTokens t colon).through step.node.span))
    (hshape : n.shape = .labeled (Placed.ident t name).node
      (some (Parser.indented s.source step.node).node))
    (hc : ∀ c ∈ n.children, c.isShown = true → c.Nests) : n.Nests := by
  obtain ⟨a, b, hscan⟩ := h.holds
  have hin := hscan.tail.tail
  obtain ⟨st, hst, hstands, -⟩ := (Parser.specs hr _).stmt (Nat.lt_succ_self _) hin hg hstep
  have hle := (hscan.chain.mem (t := t) (by simp)).2.2
  have hle' := (hscan.chain.mem (t := colon) (by simp)).2.2
  have hcolon := (hscan.behind.bounds colon (by simp)).1
  have hbehind := hscan.behind.behind
  rw [show g :: gs = _ from hst] at hbehind
  obtain ⟨hbefore, hinside, -⟩ := hbehind.around [] st
  have hstart : step.node.span.start = st.first.start := by rw [hstands.span_eq]; rfl
  have hstop : step.node.span.stop = st.last.stop := by rw [hstands.span_eq]; rfl
  refine .mk hspan ?_ (fun label inside h => ?_) hc
  · rw [Node.children, hshape]
    refine .shown rfl (Nat.le_refl _) hle (.shown rfl ?_ ?_ (.nil (Nat.le_refl _)))
    · exact ((hcolon.trans hle').trans hbefore.le).trans hstart.ge
    · exact (hstart.trans_le hinside.le).trans hstop.ge
  · cases hshape.symm.trans h
    exact hstands.isShown

lemma nests_header (hp : Parted s n) (hk : n.kind = .caseClause) {header : Node} {body : List Node}
    (hs : n.shape = .caseClause header body) (hf : header.kind = .rawExpr)
    (hc : ∀ c ∈ header.children, c.isShown = true → c.Nests) : header.Nests := by
  cases hp with
  | mk _ _ hh _ _ =>
    obtain ⟨t, colon, leads, body', header', -, -, hw, -, -, hs'⟩ := hh hk
    cases hs.symm.trans hs'
    have hshape : (Parser.withLead header' (texts none leads)).node.shape = header'.node.shape := by
      cases texts none leads <;> rfl
    have hspan : (Parser.withLead header' (texts none leads)).node.span = header'.node.span := by
      cases texts none leads <;> rfl
    have hkind : header'.node.kind = .rawExpr := by rw [Node.kind, ← hshape, ← Node.kind, hf]
    rw [Node.children, hshape] at hc
    refine Node.Nests.congr ?_ hspan hshape
    cases hps : header'.node.pieces with
    | none =>
      have hb := hw.formed.backed
      rw [Node.Backed, hps] at hb
      rw [hkind] at hb
      cases hb
    | some ps =>
      refine hw.nests hps ?_ hc
      rw [hkind]
      rintro ⟨⟩

lemma nests_of_parted (hr : Remarks line s.comments) (hp : Parted s n) (hw : Woven s.source.chars n)
    (hn : n.isShown = true) : n.Nests := by
  induction hweight : n.weight using Nat.strongRecOn generalizing n with
  | ind w ih =>
    subst hweight
    have hbelow : ∀ c ∈ n.children, c.isShown = true → c.Nests := by
      have hchild (c : Node) (hc : c ∈ n.children) (hcw : Woven s.source.chars c)
          (hcn : c.isShown = true) : c.Nests :=
        ih _ (Node.weight_lt_of_mem_children hc) (hp.children c hc) hcw hcn rfl
      cases hw with
      | mk _ _ _ hc => exact fun c hmem => hchild c hmem (hc c hmem)
      | @clause _ header body hs hf _ hh hb =>
        have hproper := hf.proper
        rw [hs] at hproper
        rw [Node.children, hs] at hchild ⊢
        refine List.forall_mem_cons.2 ⟨fun _ => ?_, fun c hmem => hchild c (.tail _ hmem) (hb c hmem)⟩
        refine nests_header hp (congrArg Shape.kind hs) hs hproper.1 fun c hmem hcn => ?_
        have hheader : header ∈ n.children := by simp [Node.children, hs, Shape.children]
        exact ih _ ((Node.weight_lt_of_mem_children hmem).trans (Node.weight_lt_of_mem_children hheader))
          ((hp.children _ hheader).children c hmem) (hh c hmem) hcn rfl
    cases hp.isRead with
    | block h hos hspan hshape => exact nests_block hr h hos hspan hshape hbelow
    | @label t colon gs name h _ _ hspan hshape =>
      obtain ⟨a, b, hscan⟩ := h.holds
      have hle := (hscan.chain.mem (t := t) (by simp)).2.2
      have hle' := (hscan.chain.mem (t := colon) (by simp)).2.2
      have hcolon := (hscan.behind.bounds colon (by simp)).1
      refine .mk hspan ?_ (fun label inside h => ?_) hbelow
      · rw [Node.children, hshape]
        exact .shown rfl (Nat.le_refl _) hle (.nil (hcolon.trans hle'))
      · cases hshape.symm.trans h
    | labeled h _ _ hg hstep hspan hshape => exact nests_labeled hr h hg hstep hspan hshape hbelow
    | clause h _ hstep hspan hshape => exact nests_clause hr h hstep hspan hshape hbelow
    | other hb =>
      obtain ⟨ps, hps⟩ : ∃ ps, n.pieces = some ps := by
        rw [Node.isShown, hb, Bool.or_false] at hn
        exact Option.isSome_iff_exists.1 hn
      refine hw.nests hps (fun hk => ?_) hbelow
      rw [hk] at hb
      cases hb

/-! ### What the printer may lose -/

lemma castable_of_drops (hw : n.Each fun m => m.kind = .block ∨ m.kind = .caseClause →
      ∀ span ∈ m.span, ∀ x y, span.start ≤ x → x < span.stop → Sync src x →
        Hop src x [.lexeme x (.semicolon true)] y → ∃ c ∈ m.children, ∃ s ∈ c.span, s.start ≤ x ∧ x < s.stop)
    (hd : ∀ x, n.Drops x → lost x) : n.Each (Node.Castable src lost) := by
  induction hw with
  | mk h _ ih =>
    refine .mk ⟨h, fun label inside hs span hspan x hx hx' => hd x (.label hs hspan hx hx')⟩
      fun c hc hn => ih c hc hn fun x hx => hd x (.child hc hn hx)

end ParallelTests
