import ParallelTests.Proofs.Parse.Grammar
import ParallelTests.Proofs.Parse.Partition

/-!
The blocks and clauses of a tree. Each comes from groups of the source, and its comments are parted
among the statements that are read from them.
-/

namespace ParallelTests

open Scan TokenGroup

def TokenStream.Holds (s : TokenStream) (gs : List TokenGroup) : Prop :=
  ∃ a b, Scanned s.source.chars a gs b

def TokenStream.Encloses (s : TokenStream) (gs : List TokenGroup) (closer : Token) : Prop :=
  ∃ opener before, s.Holds [.pair .curly opener (before ++ gs) closer]

structure TokenStream.Has (s : TokenStream) (gs : List TokenGroup) : Prop where
  holds : s.Holds gs
  mem : ∀ t ∈ TokenGroup.tokens gs, t ∈ s.tokens

def TokenStream.Within (s : TokenStream) (gs : List TokenGroup) (closer : Token) : Prop :=
  ∃ opener before, s.Has [.pair .curly opener (before ++ gs) closer]

variable {s : TokenStream}

namespace TokenStream.Has

variable {g : TokenGroup} {gs xs : List TokenGroup} {st : Stretch}

lemma of_infix (h : s.Has gs) (hx : xs <:+: gs) : s.Has xs := by
  obtain ⟨⟨a, b, h⟩, ht⟩ := h
  obtain ⟨ys, zs, rfl⟩ := hx
  refine ⟨⟨a, b, h.left.right⟩, fun t hmem => ht t ?_⟩
  rw [tokens_append, tokens_append]
  exact List.mem_append_left _ (List.mem_append_right _ hmem)

lemma suffix (h : s.Has gs) (hx : xs <:+ gs) : s.Has xs := h.of_infix hx.isInfix

lemma tail (h : s.Has (g :: gs)) : s.Has gs := h.suffix (List.suffix_cons g gs)

lemma head (h : s.Has (g :: gs)) : s.Has [g] := h.of_infix ⟨[], gs, rfl⟩

lemma upTo (h : s.Has gs) (p : TokenGroup → Bool) : s.Has (TokenGroup.upTo p gs) :=
  h.of_infix (List.takeWhile_prefix _).isInfix

lemma statement (h : s.Has st.toList) : s.Has st.statement.toList := by
  obtain ⟨gs, hgs⟩ := List.takeWhile_prefix (l := st.tail) (!isSemicolon ·)
  exact h.of_infix ⟨[], gs, congrArg (st.head :: ·) hgs⟩

lemma of_mem_split {sep : TokenGroup → Bool} (h : s.Has gs) (hm : st ∈ Stretch.split sep gs) :
    s.Has st.toList := h.of_infix (Stretch.isInfix_of_mem_split hm)

lemma inner {k : Bracket} {o c : Token} {inner : List TokenGroup}
    (h : s.Has (.pair k o inner c :: gs)) : s.Has inner := by
  obtain ⟨⟨a, b, h⟩, ht⟩ := h
  exact ⟨⟨_, _, h.inner⟩, fun t hmem => ht t (by simp [hmem])⟩

end TokenStream.Has

namespace TokenStream.Within

variable {gs xs : List TokenGroup} {closer : Token}

lemma has (h : s.Within gs closer) : s.Has gs := by
  obtain ⟨opener, before, h⟩ := h
  exact h.inner.suffix (List.suffix_append before gs)

lemma suffix (h : s.Within gs closer) (hx : xs <:+ gs) : s.Within xs closer := by
  obtain ⟨opener, before, h⟩ := h
  obtain ⟨ys, rfl⟩ := hx
  exact ⟨opener, before ++ ys, by rwa [List.append_assoc]⟩

lemma encloses (h : s.Within gs closer) : s.Encloses gs closer := by
  obtain ⟨opener, before, h⟩ := h
  exact ⟨opener, before, h.holds⟩

end TokenStream.Within

/-- A block is read from the groups between two braces, and the comments there are parted among its
statements. -/
def Node.IsBlockOf (s : TokenStream) (n : Node) : Prop :=
  ∃ opener inner closer occupants leads slots qs lead,
    Scanned s.source.chars opener.start [.pair .curly opener inner closer] closer.stop ∧
    Parser.items s closer inner = .ok occupants ∧
    Attach.Partition s.comments opener closer occupants leads slots qs lead ∧
    n.span = some (.ofTokens opener closer) ∧
    n.shape = .block (qs.map Placed.node) (opener.line = closer.line) lead

/-- A clause is read from the groups of a block, and the comments between its colon and what comes
behind it are parted among its statements. -/
def Node.IsClauseOf (s : TokenStream) (n : Node) : Prop :=
  ∃ t colon closer gs rest, ∃ body : Parser.Steps rest, ∃ leads slots qs lead, ∃ header : Placed,
    s.Encloses (.leaf t :: gs) closer ∧ Parser.isClause (.leaf t) = true ∧
    since (isOp .colon) gs = .leaf colon :: rest ∧
    Parser.clauseBody s closer rest = .ok body ∧
    Attach.Partition s.comments colon (Parser.next closer body.rest)
      (body.nodes.map fun p => ⟨p, p.span.stop⟩) leads slots qs lead ∧
    header.span = .ofTokens t colon ∧
    n.shape = .caseClause (Parser.withLead header lead).node (qs.map Placed.node)

def Node.IsHeadedIn (s : TokenStream) (n : Node) : Prop :=
  ∃ t colon leads body, ∃ header : Placed, header.span = .ofTokens t colon ∧
    colon.lexeme = .op .colon ∧ Woven s.source.chars header.node ∧
    (∀ c ∈ leads, c ∈ s.comments ∧ colon.stop ≤ c.start) ∧ Attach.Joins colon.line leads ∧
    n.shape = .caseClause (Parser.withLead header (Attach.texts none leads)).node body

def Kind.hasBody : Kind → Bool
  | block | caseClause | labeled => true
  | _ => false

inductive Node.IsRead (s : TokenStream) (n : Node) : Prop
  | block {o c : Token} {inner : List TokenGroup} {os : List Occupant}
      (h : s.Has [.pair .curly o inner c]) (hos : Parser.items s c inner = .ok os)
      (hspan : n.span = some (.ofTokens o c))
      (hshape : n.shape = .block ((Attach.attach s.comments o c os).1.map Placed.node)
        (o.line = c.line) (Attach.attach s.comments o c os).2)
  | label {t colon : Token} {gs : List TokenGroup} {name : String}
      (h : s.Has (.leaf t :: .leaf colon :: gs)) (ht : t.lexeme = .ident name)
      (hc : colon.lexeme = .op .colon) (hspan : n.span = some (.ofTokens t colon))
      (hshape : n.shape = .labeled (Placed.ident t name).node none)
  | labeled {t colon closer : Token} {g : TokenGroup} {gs : List TokenGroup} {name : String}
      {step : Parser.Step gs} (h : s.Has (.leaf t :: .leaf colon :: g :: gs))
      (ht : t.lexeme = .ident name) (hc : colon.lexeme = .op .colon) (hg : g.isSemicolon = false)
      (hstep : Parser.stmt s closer ⟨g, gs⟩ = .ok step)
      (hspan : n.span = some ((Span.ofTokens t colon).through step.node.span))
      (hshape : n.shape = .labeled (Placed.ident t name).node
        (some (Parser.indented s.source step.node).node))
  | clause {t closer : Token} {gs : List TokenGroup} {step : Parser.Step gs}
      (h : s.Within (.leaf t :: gs) closer) (ht : Parser.isClause (.leaf t) = true)
      (hstep : Parser.clause s t closer gs = .ok step) (hspan : n.span = some step.node.span)
      (hshape : n.shape = step.node.shape)
  | other (hb : n.kind.hasBody = false)

inductive Parted (s : TokenStream) : Node → Prop
  | mk {n : Node} (hb : n.kind = .block → n.IsBlockOf s)
      (hc : n.kind = .caseClause → n.IsClauseOf s) (hh : n.kind = .caseClause → n.IsHeadedIn s)
      (hr : n.IsRead s) (h : ∀ m ∈ n.children, Parted s m) : Parted s n

lemma Node.IsRead.congr {n m : Node} (h : n.IsRead s) (hspan : m.span = n.span)
    (hshape : m.shape = n.shape) : m.IsRead s := by
  cases h with
  | block h hos hs hn => exact .block h hos (hspan.trans hs) (hshape.trans hn)
  | label h ht hc hs hn => exact .label h ht hc (hspan.trans hs) (hshape.trans hn)
  | labeled h ht hc hg hstep hs hn =>
    exact .labeled h ht hc hg hstep (hspan.trans hs) (hshape.trans hn)
  | clause h ht hstep hs hn => exact .clause h ht hstep (hspan.trans hs) (hshape.trans hn)
  | other hb => exact .other (by rwa [Node.kind, hshape])

namespace Parted

variable {p q : Placed}

lemma of_kind (hk : p.shape.kind.hasBody = false) (h : ∀ m ∈ p.shape.children, Parted s m) :
    Parted s p.node := by
  have hne {k : Kind} (hb : k.hasBody = true) : p.node.kind ≠ k := by
    rintro rfl
    exact ne_true_of_eq_false hk hb
  exact .mk (fun h => absurd h (hne rfl)) (fun h => absurd h (hne rfl)) (fun h => absurd h (hne rfl))
    (.other hk) h

lemma leaf (hk : p.shape.kind.hasBody = false) (h : p.shape.children = []) : Parted s p.node :=
  of_kind hk (by simp [h])

lemma children {n : Node} (h : Parted s n) : ∀ m ∈ n.children, Parted s m := by
  cases h with
  | mk _ _ _ _ h => exact h

lemma isRead {n : Node} (h : Parted s n) : n.IsRead s := by
  cases h with
  | mk _ _ _ hr _ => exact hr

lemma congr (h : Parted s p.node) (hspan : q.span = p.span) (hshape : q.shape = p.shape) :
    Parted s q.node := by
  cases h with
  | mk hb hc hh hr h =>
    have hn : q.node.span = p.node.span := congrArg some hspan
    have hs : q.node.shape = p.node.shape := hshape
    refine .mk ?_ ?_ ?_ (hr.congr hn hs) ?_
    · rwa [Node.IsBlockOf, Node.kind, hn, hs]
    · rwa [Node.IsClauseOf, Node.kind, hs]
    · rwa [Node.IsHeadedIn, Node.kind, hs]
    · rwa [Node.children, hs]

end Parted

namespace Parser

variable {line : Nat}

lemma isHeadedIn (hr : Remarks line s.comments) {t colon closer : Token}
    {head rest : List TokenGroup} {nodes qs : List Placed} {os : List Occupant}
    {leads : List Comment} {slots : List Attach.Slot} {lead : Option String} {span : Span} {a b : Nat}
    (hs : Scanned s.source.chars a (.leaf t :: (head ++ .leaf colon :: rest)) b)
    (hc : colon.lexeme = .op .colon) (hnodes : rawNodes s false head = .ok nodes)
    (hp : Attach.Partition s.comments colon closer os leads slots qs lead) :
    Node.IsHeadedIn s (Placed.node
      { span := span,
        shape := .caseClause
          (withLead (raw s.source (.ofTokens t colon) .rawExpr nodes) lead).node
          (qs.map Placed.node) }) := by
  have hread := reads_header hs (rawNodes_ok hr head) hnodes
  refine ⟨t, colon, leads, qs.map Placed.node, _, rfl, hc, hread.woven, fun c hmem => ?_, hp.joins, ?_⟩
  · have hfree : c ∈ Attach.free s.comments colon closer os :=
      hp.each ▸ List.mem_append_left _ hmem
    exact ⟨(List.mem_filter.1 hfree).1, (Attach.of_mem_free hfree).1.1⟩
  · rw [← hp.lead_eq]
    rfl

lemma partition_block (hr : Remarks line s.comments) {o c : Token} {inner : List TokenGroup}
    {os : List Occupant} {a b : Nat} (hs : Scanned s.source.chars a [.pair .curly o inner c] b)
    (h : items s c inner = .ok os) :
    ∃ leads slots, Attach.Partition s.comments o c os leads slots
      (Attach.attach s.comments o c os).1 (Attach.attach s.comments o c os).2 := by
  obtain ⟨core, sems, rfl, -, hrows, hsp, hord⟩ :=
    (specs hr _).items (Nat.lt_succ_self _) hs.inner h
  have hlined : Lined o.stop os c.start := hrows.lined hs.inner.left hsp (hord (Nat.le_refl _))
  refine Attach.partition_attach hr.ascending hlined fun o ho => ?_
  obtain ⟨st, hst⟩ := hrows.stands o.stmt (List.mem_map_of_mem ho)
  exact ⟨hst.trailing, hst.isStmt⟩

lemma partition_clause (hr : Remarks line s.comments) {colon closer : Token}
    {rest : List TokenGroup} {body : Steps rest} (hs : s.Encloses (.leaf colon :: rest) closer)
    (h : clauseBody s closer rest = .ok body) :
    ∃ leads slots, Attach.Partition s.comments colon (next closer body.rest)
      (body.nodes.map fun p => ⟨p, p.span.stop⟩) leads slots
      (Attach.attach s.comments colon (next closer body.rest)
        (body.nodes.map fun p => ⟨p, p.span.stop⟩)).1
      (Attach.attach s.comments colon (next closer body.rest)
        (body.nodes.map fun p => ⟨p, p.span.stop⟩)).2 := by
  obtain ⟨opener, before, a, b, hs⟩ := hs
  have hin := hs.inner.right.behind
  obtain ⟨core, sems, hrest, -, hrows, -, -, hk⟩ :=
    (specs hr _).clauseBody (Nat.lt_succ_self _) hin h
  rw [hrest] at hin
  obtain ⟨m, hcore, hmore⟩ := hin.split
  have hlined := (hrows.lined_of_forall hcore hk).mono (le_next hmore (Nat.le_refl _))
  refine Attach.partition_attach hr.ascending hlined (List.forall_mem_map.2 fun p hp => ?_)
  obtain ⟨st, hst⟩ := hrows.stands p hp
  exact ⟨hst.trailing, hst.isStmt⟩

end Parser

end ParallelTests
