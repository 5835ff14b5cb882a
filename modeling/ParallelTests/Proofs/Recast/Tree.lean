import ParallelTests.Proofs.Parse.Attached
import ParallelTests.Proofs.Recast.Course

/-!
A tree that is read from a source is printed as the source is: every node from its start to its end,
but for the comments in front of what is labelled.
-/

namespace ParallelTests

open Scan Attach TokenGroup Printer

def Node.isShown (n : Node) : Bool := n.pieces.isSome || n.kind.hasBody

inductive Node.Each (P : Node → Prop) : Node → Prop
  | mk {n : Node} (h : P n) (hc : ∀ m ∈ n.children, m.isShown = true → Node.Each P m) : Node.Each P n

namespace Node.Each

variable {P : Node → Prop} {n : Node}

lemma here (h : n.Each P) : P n := by
  cases h with
  | mk h => exact h

lemma children (h : n.Each P) : ∀ m ∈ n.children, m.isShown = true → m.Each P := by
  cases h with
  | mk _ h => exact h

lemma of_at? {P : Node → Prop} {n : Node} (h : ∀ a m, n.at? a = some m → P m) : n.Each P := by
  refine .mk (h [] n rfl) fun c hc _ => ?_
  obtain ⟨i, hi⟩ := List.mem_iff_getElem?.1 hc
  have := weight_lt_of_mem_children hc
  exact of_at? fun a m ha => h (i :: a) m (by simpa [hi] using ha)
termination_by n.weight

end Node.Each

structure Node.Castable (src : List Char) (lost : Nat → Prop) (n : Node) : Prop where
  unwritten : n.kind = .block ∨ n.kind = .caseClause → ∀ span ∈ n.span, ∀ x y, span.start ≤ x →
    x < span.stop → Sync src x → Hop src x [.lexeme x (.semicolon true)] y →
      ∃ c ∈ n.children, ∃ s ∈ c.span, s.start ≤ x ∧ x < s.stop
  loses : ∀ label inside, n.shape = .labeled label inside → ∀ span ∈ n.span, ∀ x, span.start ≤ x →
    x < ((inside.bind Node.span).map Span.start).getD span.stop → lost x

lemma Node.Castable.congr {src : List Char} {lost : Nat → Prop} {n m : Node} (h : n.Castable src lost)
    (hspan : m.span = n.span) (hshape : m.shape = n.shape) : m.Castable src lost where
  unwritten := by simpa only [Node.kind, Node.children, hspan, hshape] using h.unwritten
  loses := by simpa only [hspan, hshape] using h.loses

lemma Node.Each.relaid {src : List Char} {lost : Nat → Prop} {n m : Node}
    (h : n.Each (Node.Castable src lost)) (hspan : m.span = n.span) (hshape : m.shape = n.shape) :
    m.Each (Node.Castable src lost) :=
  .mk (h.here.congr hspan hshape) fun c hc => h.children c (by rwa [Node.children, hshape] at hc)

variable {src : List Char} {lost : Nat → Prop} {a b m : Nat}

lemma Laid.of_line {n : Node} (h : Lies src (.line n) a b) (hk : n.kind.isPlain = true) :
    Lies src (.node n) a b := by
  generalize hp : Part.line n = part at h
  cases h with
  | plain _ _ h =>
    cases hp
    exact h
  | clause | label | labeled =>
    cases hp
    cases hk
  | _ => cases hp

lemma Laid.isShown {n : Node} (h : Lies src (.node n) a b) : n.isShown = true := by
  generalize hp : Part.node n = part at h
  cases h with
  | woven =>
    cases hp
    rfl
  | block =>
    cases hp
    simp [Node.isShown, Node.kind, Node.shape, Shape.kind, Kind.hasBody]
  | _ => cases hp

lemma Stands.isShown {p : Placed} {st : Stretch} (h : Stands src p st) : p.node.isShown = true := by
  by_cases hk : p.shape.kind = .caseClause
  · simp [Node.isShown, Node.kind, Placed.node, Node.shape, hk, Kind.hasBody]
  · rcases Parser.isPlain_or_labeled h.isStmt h.ne_comment hk with hplain | hl
    · exact ((h.lies _ h.layout fun _ => h.trailing).of_line hplain).isShown
    · simp [Node.isShown, Node.kind, Placed.node, Node.shape, hl, Kind.hasBody]

lemma Rows.stands_infix {fresh : Bool} {gs : List TokenGroup} {ps : List Placed}
    (h : Rows src fresh gs ps) : ∀ p ∈ ps, ∃ st, Stands src p st ∧ st.toList <:+: gs := by
  induction h with
  | nil => simp
  | @cons _ _ sems gs st p ps _ _ hp _ _ ih =>
    refine List.forall_mem_cons.2 ⟨⟨st, hp, sems, gs, by simp⟩, fun q hq => ?_⟩
    obtain ⟨st', hst', hin⟩ := ih q hq
    exact ⟨st', hst', hin.trans ⟨sems ++ st.toList, [], by simp⟩⟩

variable {s : TokenStream} {line : Nat}

/-! ### Tokens of the source -/

lemma TokenStream.line_token (hs : TokenStream.ofSource s.source = .ok s) {t : Token} (ht : t ∈ s.tokens)
    (hop : Hop s.source.chars t.start [.lexeme t.start t.lexeme] t.stop) (hn : '\n' ∉ t.lexeme.text.toList) :
    t.line = lineAt s.source.chars t.stop := by
  have hlies := (lies_tile hs).1 t ht (by simpa [Token.isAutomatic] using hop.not_automatic)
  rw [lineAt_add hop.lt.le, hop.cut_eq, List.count_eq_zero.2 hn]
  exact hlies.line

lemma labelled_of_scanned {t colon : Token} {name : String} {gs : List TokenGroup}
    (hs : Scanned src a (.leaf t :: .leaf colon :: gs) b) (ht : t.lexeme = .ident name)
    (hc : colon.lexeme = .op .colon) : Labelled src name t.start colon.stop := by
  have hch : Chain src (t :: [] ++ colon :: tokens gs) := by simpa using hs.chain
  obtain ⟨ms, hr, hg, he⟩ := hch.gap (by simp [Token.isSemicolon, ht]) (by simp)
    (by simp [Token.isSemicolon, hc])
  have hop := hch.hop (t := t) (by simp) (by simp [Token.isAutomatic, ht])
  have hop' := hch.hop (t := colon) (by simp) (by simp [Token.isAutomatic, hc])
  rw [ht] at hop
  rw [hc] at hop'
  exact ⟨t.stop, colon.start, ms, hop, hr,
    Parser.quiet_of_gap hg (by simpa [ht, Lexeme.endsLine] using he), hop'⟩

lemma opens_of_scanned {colon : Token} {st : Stretch} {gs : List TokenGroup}
    (hs : Scanned src a (.leaf colon :: (st.toList ++ gs)) b) (hc : colon.lexeme = .op .colon)
    (hf : st.first.isSemicolon = false) :
    OpensLine src st.first.start ∧ ∃ ms, Reach src colon.stop ms st.first.start ∧
      ∀ k ∈ ms, k.isQuiet = true := by
  obtain ⟨fs, hfs⟩ := st.tokens_eq_first
  have hch : Chain src (colon :: [] ++ st.first :: (fs ++ tokens gs)) := by
    simpa [tokens_append, hfs] using hs.chain
  obtain ⟨ms, hr, hg, he⟩ := hch.gap (by simp [Token.isSemicolon, hc]) (by simp) hf
  have hquiet : ∀ k ∈ ms, k.isQuiet = true := by
    have hends : ∀ k ∈ ms, ¬k.ends colon.lexeme.endsLine = true := by simpa using he
    intro k hk
    have hgap := hg k hk
    have hend := hends k hk
    cases k with
    | lexeme _ l => cases l <;> simp_all [Mark.isGap, Mark.ends]
    | _ => rfl
  have hop := hch.hop (t := colon) (by simp) (by simp [Token.isAutomatic, hc])
  have hop' := hch.hop (t := st.first) (by simp) (Token.isAutomatic_of_isSemicolon hf)
  obtain ⟨xs, hsync⟩ := (hch.mem (t := colon) (by simp)).1
  refine ⟨⟨⟨_, _, hop', Lexeme.isSemicolon_eq _ ▸ hf⟩, _, (hsync.trans (.single hop)).trans hr, ?_⟩,
    ms, hr, hquiet⟩
  rw [lastOf_append_quiet hquiet, lastOf_concat]
  simp [Mark.behind, hc, Lexeme.endsLine]

/-! ### Statements -/

def CastsBelow (s : TokenStream) (lost : Nat → Prop) (k : Nat) : Prop :=
  ∀ n : Node, n.weight < k → Parted s n → n.Each (Node.Castable s.source.chars lost) →
    ∀ a b, Lies s.source.chars (.node n) a b → Casts s.source.chars lost n a b

lemma Placed.weight_laidOut (p : Placed) (blank : Bool) (text : Option String) :
    (p.laidOut blank text).node.weight = p.node.weight := by
  rw [Placed.node, Placed.node, Placed.laidOut, Node.weight, Node.weight]

lemma casts_stmt {k : Nat} (ih : CastsBelow s lost k) (hs : TokenStream.ofSource s.source = .ok s)
    (hr : Remarks line s.comments) {p : Placed} {st : Stretch} (hst : Stands s.source.chars p st)
    (hh : s.Has st.toList) (ho : OpensLine s.source.chars p.span.start) (hw : p.node.weight < k)
    (hp : Parted s p.node) (he : p.node.Each (Node.Castable s.source.chars lost))
    (hk : p.shape.kind ≠ .caseClause) :
    (⟨p, p.span.stop⟩ : Occupant).Casts s.source.chars lost := by
  have hstart : p.span.start = st.first.start := by rw [hst.span_eq]; rfl
  have hstop : p.span.stop = st.last.stop := by rw [hst.span_eq]; rfl
  obtain ⟨ls, hls⟩ := st.tokens_eq_last
  obtain ⟨a, b, hscan⟩ := hh.holds
  have hlast : st.last ∈ tokens st.toList := by simp [hls]
  have hline := TokenStream.endLine_token hs (hh.mem _ hlast)
    (hscan.chain.hop hlast (Token.isAutomatic_of_isSemicolon hst.last))
  have hlt : p.span.start < p.span.stop := by
    rw [hstart, hstop]
    exact hscan.lt (Token.isAutomatic_of_isSemicolon hst.first)
  have hlies := hst.lies p.layout hst.layout fun _ => hst.trailing
  rw [← hstart, ← hstop] at hlies
  refine .stmt (by rw [hstop, ← hline, hst.span_eq]; rfl) fun blank cs e ht => ?_
  rcases Parser.isPlain_or_labeled hst.isStmt hst.ne_comment hk with hplain | hlabeled
  · have hnode := Laid.relayout (hlies.of_line hplain) (p.laidOut blank (texts none cs)).layout
    refine castsLine_plain hk ?_ hst.layout.indent ho ?_ hlt ht rfl
    · rintro h
      rw [show p.shape.kind = .labeled from h] at hplain
      cases hplain
    · exact ih (p.laidOut blank (texts none cs)).node ((p.weight_laidOut blank _).trans_lt hw)
        (hp.congr rfl rfl) (he.relaid rfl rfl) _ _ hnode
  · have hnone : p.pieces = none := hlies.pieces_eq_none hlabeled
    have hlayout : (p.laidOut blank (texts none cs)).node =
        .mk (some p.span) (p.laidOut blank (texts none cs)).layout none p.shape := by
      rw [Placed.node, Placed.laidOut, hnone]
    have hread := hp.isRead
    rw [hlayout]
    cases hread with
    | block _ _ _ hshape =>
      cases hlabeled.symm.trans (congrArg Shape.kind hshape)
    | clause _ _ hstep _ hshape =>
      obtain ⟨_, _, _, _, _, _, _, _, _, _, _, _, hnode⟩ := Parser.of_clause hstep
      rw [hnode] at hshape
      cases hlabeled.symm.trans (congrArg Shape.kind hshape)
    | other hb =>
      rw [show p.node.kind = .labeled from hlabeled] at hb
      cases hb
    | @label t colon gs name h hident hcolon hspan hshape =>
      obtain ⟨_, _, hscan'⟩ := h.holds
      have hspan' : p.span = .ofTokens t colon := Option.some.inj hspan
      have hlabel := labelled_of_scanned hscan' hident hcolon
      have hloses := he.here.loses _ _ hshape _ hspan
      have hshape' : p.shape = .labeled (Placed.ident t name).node none := hshape
      rw [hshape']
      rw [hspan'] at ht ho ⊢
      exact castsLine_label hlabel hloses ho ⟨_, _, rfl⟩ ht rfl
    | @labeled t colon closer g gs name step h hident hcolon hg hstep hspan hshape =>
      obtain ⟨_, _, hscan'⟩ := h.holds
      obtain ⟨st', hst', hstands, hlay, hkind⟩ :=
        (Parser.specs hr _).stmt (Nat.lt_succ_self _) hscan'.tail.tail hg hstep
      obtain ⟨hsound, htrail⟩ := Parser.sound_indented s.source step.node hlay
      have hinside := Parser.stands_indented hstands hlay
      have hspan' : p.span = (Span.ofTokens t colon).through step.node.span := Option.some.inj hspan
      have hlabel := labelled_of_scanned hscan' hident hcolon
      have hloses := he.here.loses _ _ hshape _ hspan
      have hshape' : p.shape = .labeled (Placed.ident t name).node
        (some (Parser.indented s.source step.node).node) := hshape
      have hst'' : g :: gs = st'.toList ++ step.rest := hst'
      have hscan'' := hscan'.tail
      rw [hst''] at hscan''
      obtain ⟨hopens, ms, hreach, hquiet⟩ := opens_of_scanned hscan'' hcolon hinside.first
      have hlies' := hinside.lies _ hinside.layout fun _ => hinside.trailing
      have hstart' : st'.first.start = step.node.span.start := by rw [hstands.span_eq]; rfl
      have hstop' : st'.last.stop = step.node.span.stop := by rw [hstands.span_eq]; rfl
      have hmem : (Parser.indented s.source step.node).node ∈ p.node.children := by
        rw [Node.children, Placed.node, Node.shape, hshape']
        simp [Shape.children]
      have hlt' : st'.first.start < st'.last.stop :=
        hscan''.tail.left.lt (Token.isAutomatic_of_isSemicolon hinside.first)
      rw [hshape']
      rw [hspan'] at ht ho ⊢
      refine castsLine_labeled hlabel hreach hquiet 
        (fun x hx hx' => hloses x hx (show x < step.node.span.start from hstart' ▸ hx')) ho
        hopens ⟨_, _, rfl⟩ hsound htrail (fun hne => ?_) (fun hl => hlies'.pieces_eq_none hl) hlt'
        (hstop' ▸ ht) rfl
      have hplain := (Parser.isPlain_or_labeled hinside.isStmt hinside.ne_comment hkind).resolve_right hne
      exact ih _ ((Node.weight_lt_of_mem_children hmem).trans hw) (hp.children _ hmem)
        (he.children _ hmem hinside.isShown) _ _ (hlies'.of_line hplain)

/-! ### What stands between two tokens -/

lemma course_between (hs : TokenStream.ofSource s.source = .ok s) {o c : Token}
    {core sems : List TokenGroup} {os : List Occupant} {leads : List Comment} {slots : List Slot}
    {qs : List Placed} {lead : Option String}
    (hrows : Rows s.source.chars true core (os.map (·.stmt))) (hsems : ∀ g ∈ sems, g.isSemicolon = true)
    (hc : Chain s.source.chars (o :: tokens (core ++ sems) ++ [c])) (ho : o.isSemicolon = false)
    (hc' : c.isSemicolon = false) (hf : o.lexeme.endsLine = false) (hl : Lined o.stop os c.start)
    (hstop : ∀ x ∈ os, Sync s.source.chars x.stop ∧ x.stmt.span.stop ≤ x.stop)
    (hu : Unwritten s.source.chars o.stop (os.map (·.stmt)) c.start)
    (hp : Partition s.comments o c os leads slots qs lead) :
    Strides s.source.chars Mark.isQuiet true o.stop o.lexeme (os.map (·.stmt)) c.start ∧
      (∀ x ∈ os, OpensLine s.source.chars x.stmt.span.start) ∧
      Course s.source.chars o.stop (reading leads slots) os c.start := by
  have hopener := hc.mem (t := o) (by simp)
  have hcloser := hc.mem (t := c) (by simp)
  have hop := hc.hop (t := o) (by simp) (Token.isAutomatic_of_isSemicolon ho)
  have hstrides := (hrows.strides hsems hc ho hc' fun _ => hf).quiet hopener.2.1 hu
  obtain ⟨xs, hxs⟩ := hopener.1
  have hopens := hstrides.opens (hxs.trans (.single hop))
  have hopens' : ∀ x ∈ os, OpensLine s.source.chars x.stmt.span.start := fun x hx =>
    hopens x.stmt (List.mem_map_of_mem hx)
  obtain ⟨hstmts, hcomments⟩ := filterMap_reading leads slots
  rw [hp.stmts] at hstmts
  rw [hp.each] at hcomments
  have hfree (d : Comment) : .comment d ∈ reading leads slots ↔ d ∈ free s.comments o c os := by
    rw [← hcomments, List.mem_filterMap]
    refine ⟨fun h => ⟨_, h, rfl⟩, ?_⟩
    rintro ⟨e, he, hed⟩
    cases e with
    | stmt => cases hed
    | comment d' => exact Option.some.inj hed ▸ he
  refine ⟨hstrides, hopens', course_of_entries hstmts hp.ascending hl hopener.2.1 hcloser.1
    (fun x hx => ⟨(hopens' x hx).broken.imp fun _ h => h.1, (hstop x hx).1⟩) (fun d hd => ?_)
    fun x y mark hx hx' hsync hop => ?_⟩
  · rw [hfree] at hd
    obtain ⟨⟨hod, hdc⟩, hcovers⟩ := of_mem_free hd
    have hmem : d ∈ s.comments := (List.mem_filter.1 hd).1
    exact ⟨TokenStream.remarked hs d hmem, ((TokenStream.noted hs).mem sync_zero hmem).1, hod, hdc,
      hcovers⟩
  · cases mark with
    | newline => exact .inl rfl
    | lexeme start l =>
      obtain ⟨-, -, -, rfl, -⟩ := hop.lexeme_inv
      obtain ⟨ns, hr⟩ := hopener.2.1.to hsync hx
      obtain ⟨p, hmem, hpx, hpx'⟩ := hstrides.covers hr hx' hop
      obtain ⟨z, hz, rfl⟩ := List.mem_map.1 hmem
      exact .inr (.inr ⟨z, hz, hpx, hpx'.trans_le (hstop z hz).2⟩)
    | remark text =>
      obtain ⟨ns, hr⟩ := hsync
      obtain ⟨d, hd, rfl, -⟩ := (TokenStream.noted hs).exists_of_hop hr hop
      right
      by_cases hcovered : ∃ z ∈ os, covers z d = true
      · obtain ⟨z, hz, hzd⟩ := hcovered
        exact .inr ⟨z, hz, by simpa [covers] using hzd⟩
      · refine .inl ⟨d, (hfree d).2 (List.mem_filter.2 ⟨hd, ?_⟩), rfl⟩
        simp only [not_exists, not_and, Bool.not_eq_true] at hcovered
        simpa [hx, hx'] using hcovered

lemma ranks_between {o c : Token} {os : List Occupant} {leads : List Comment} {slots : List Slot}
    {qs : List Placed} {lead : Option String} (h : Course src o.stop (reading leads slots) os c.start)
    (hline : o.line = lineAt src o.stop) {comments : List Comment}
    (hp : Partition comments o c os leads slots qs lead) (ho : ∀ x ∈ os, x.Casts src lost) :
    ∃ m e, Trail src o.stop leads m ∧ Ranks src lost m slots e ∧ Vacant src e c.start := by
  obtain ⟨m, ht, hrest, hl⟩ := h.trail hp.joins hline
  obtain ⟨e, hranks, hv⟩ := hrest.ranks hp.seated ho (.inl ⟨hl, rfl⟩)
  exact ⟨m, e, ht, hranks, hv⟩

/-! ### Clauses -/

lemma tokens_next (closer : Token) (gs : List TokenGroup) :
    ∃ ts, tokens gs ++ [closer] = Parser.next closer gs :: ts := by
  cases gs with
  | nil => exact ⟨[], by simp [Parser.next]⟩
  | cons g gs =>
    obtain ⟨ts, hts⟩ := g.spelled_eq_first
    exact ⟨ts ++ tokens gs ++ [closer], by simp [Parser.next, hts]⟩

def Occupant.IsClause (s : TokenStream) (closer : Token) (gs : List TokenGroup) (o : Occupant) : Prop :=
  ∃ t rest, ∃ step : Parser.Step rest, .leaf t :: rest <:+ gs ∧ Parser.isClause (.leaf t) = true ∧
    Parser.clause s t closer rest = .ok step ∧ o = ⟨step.node, (Parser.next closer step.rest).start⟩

lemma isClause_of_items (hr : Remarks line s.comments) {closer : Token} {gs : List TokenGroup}
    {os : List Occupant} (hs : Scanned s.source.chars a gs b)
    (h : Parser.items s closer gs = .ok os) :
    ∀ o ∈ os, o.stmt.shape.kind = .caseClause → o.IsClause s closer gs := by
  induction hn : gs.length using Nat.strong_induction_on generalizing gs os with
  | _ n ih =>
    subst hn
    have hbehind {g : TokenGroup} {rest more : List TokenGroup} {os' : List Occupant}
        (hgs : g :: rest = gs) (hmore : more <:+ rest)
        (hos : Parser.items s closer more = .ok os') :
        ∀ o ∈ os', o.stmt.shape.kind = .caseClause → o.IsClause s closer gs := by
      obtain ⟨ys, rfl⟩ := hmore
      subst hgs
      intro o ho hk
      have hlt : more.length < (g :: (ys ++ more)).length := by
        rw [List.length_cons, List.length_append]
        omega
      obtain ⟨t, rest, step, hin, hrest⟩ := ih more.length hlt hs.tail.right hos rfl o ho hk
      exact ⟨t, rest, step, hin.trans ((List.suffix_append ys more).trans (List.suffix_cons g _)), hrest⟩
    rw [Parser.items.eq_def] at h
    split at h
    · obtain rfl := Except.pure_eq_ok_iff.1 h
      simp
    · next g rest =>
      split at h
      · exact hbehind rfl (List.suffix_refl _) h
      · next hsemi =>
        split at h
        · next hclause =>
          obtain ⟨t, rfl, ht⟩ := Parser.of_isClause hclause
          obtain ⟨step, hstep, h⟩ := Except.bind_eq_ok_iff.1 h
          obtain ⟨os', hos, h⟩ := Except.bind_eq_ok_iff.1 h
          obtain rfl := Except.pure_eq_ok_iff.1 h
          exact List.forall_mem_cons.2 ⟨fun _ => ⟨t, rest, step, List.suffix_refl _, hclause, hstep, rfl⟩,
            hbehind rfl step.rest_suffix hos⟩
        · obtain ⟨step, hstep, h⟩ := Except.bind_eq_ok_iff.1 h
          obtain ⟨-, -, h⟩ := Except.bind_eq_ok_iff.1 h
          obtain ⟨os', hos, h⟩ := Except.bind_eq_ok_iff.1 h
          obtain rfl := Except.pure_eq_ok_iff.1 h
          obtain ⟨st, -, -, -, hk⟩ :=
            (Parser.specs hr _).stmt (Nat.lt_succ_self _) hs (by simpa using hsemi) hstep
          exact List.forall_mem_cons.2 ⟨fun hk' => absurd hk' hk, hbehind rfl step.rest_suffix hos⟩

lemma unwritten_of_partition (hs : TokenStream.ofSource s.source = .ok s) {o c : Token}
    {os : List Occupant} {leads : List Comment} {slots : List Slot} {qs : List Placed}
    {lead : Option String} (hp : Partition s.comments o c os leads slots qs lead)
    (h : ∀ x y, a ≤ x → x < b → Sync s.source.chars x →
      Hop s.source.chars x [.lexeme x (.semicolon true)] y →
        ∃ q ∈ qs, q.span.start ≤ x ∧ x < q.span.stop) :
    Unwritten s.source.chars a (os.map (·.stmt)) b := by
  intro x y hx hx' hsync hop
  obtain ⟨q, hq, hqx, hqx'⟩ := h x y hx hx' hsync hop
  obtain ⟨p, ⟨z, hz, rfl⟩ | ⟨d, hd, rfl⟩, hspan, -⟩ := hp.mem hq
  · rw [hspan] at hqx hqx'
    exact ⟨z.stmt, List.mem_map_of_mem hz, hqx, hqx'⟩
  · rw [hspan] at hqx hqx'
    obtain ⟨hsync', hop'⟩ := (TokenStream.noted hs).mem sync_zero hd
    rcases Nat.eq_or_lt_of_le hqx with he | hlt
    · have he : d.start = x := he
      have := (hop'.unique (he ▸ hop)).1
      simp at this
    · exact absurd (hsync'.le_of_hop hsync hop' hlt) (Nat.not_le.2 hqx')

lemma Rows.sync_stop {fresh : Bool} {gs : List TokenGroup} {ps : List Placed}
    (h : Rows src fresh gs ps) (hs : Scanned src a gs b) : ∀ p ∈ ps, Sync src p.span.stop := by
  intro p hp
  obtain ⟨st, hst, xs, ys, hgs⟩ := h.stands_infix p hp
  obtain ⟨ls, hls⟩ := st.tokens_eq_last
  have hmem : st.last ∈ tokens gs := by
    rw [← hgs]
    simp [hls]
  have hstop : p.span.stop = st.last.stop := by rw [hst.span_eq]; rfl
  exact hstop ▸ (hs.chain.mem hmem).2.1

lemma copies_header {k : Nat} (ih : CastsBelow s lost k) {header : Placed} {ps : List Piece}
    (h : Lies s.source.chars (.node header.node) a b) (hps : header.pieces = some ps)
    (hk : header.shape.kind ≠ .block) (hc : ∀ n ∈ header.shape.children, n.weight < k ∧ Parted s n ∧
      (n.isShown = true → n.Each (Node.Castable s.source.chars lost))) :
    Copies s.source.chars lost a b fun rebase page =>
      ps.foldlM (emitPiece rebase header.shape.children) page := by
  obtain ⟨span, shape, pieces, layout⟩ := header
  obtain rfl : pieces = some ps := hps
  generalize hpart : Part.node (Placed.node ⟨span, shape, some ps, layout⟩) = part at h
  cases h with
  | woven _ h =>
    cases hpart
    exact copies_pieces h fun n hn a b hl => ih n (hc n hn).1 (hc n hn).2.1 ((hc n hn).2.2 hl.isShown) a b hl
  | block =>
    cases hpart
    exact absurd rfl hk
  | _ => cases hpart

lemma isSemicolon_closer {k : Bracket} {o c : Token} {inner gs : List TokenGroup}
    (h : Scanned src a (.pair k o inner c :: gs) b) : c.isSemicolon = false := by
  have hm := h.matched _ (List.mem_cons_self ..)
  cases hm with
  | pair _ hc _ => simp [Token.isSemicolon, hc]

lemma casts_clause {k : Nat} (ih : CastsBelow s lost k) (hs : TokenStream.ofSource s.source = .ok s)
    (hr : Remarks line s.comments) {closer : Token} {inner : List TokenGroup} {o : Occupant}
    (hw : s.Within inner closer) (h : o.IsClause s closer inner) (hweight : o.stmt.node.weight < k)
    (hp : Parted s o.stmt.node) (he : o.stmt.node.Each (Node.Castable s.source.chars lost))
    (ho : OpensLine s.source.chars o.stmt.span.start)
    (htail : ∀ x y, o.stmt.span.stop ≤ x → x < o.stop → Sync s.source.chars x →
      ¬Hop s.source.chars x [.lexeme x (.semicolon true)] y) : o.Casts s.source.chars lost := by
  obtain ⟨t, gs, step, hin, hclause, hstep, rfl⟩ := h
  have hw := hw.suffix hin
  obtain ⟨_, ht', ht⟩ := Parser.of_isClause hclause
  cases ht'
  obtain ⟨colon, rest, nodes, body, qs, lead, hsince, hc, hnodes, hbody, hat, hrest, hnode⟩ :=
    Parser.of_clause hstep
  obtain ⟨-, hgs⟩ := of_since hsince
  have hcolon : s.Within (.leaf colon :: rest) closer := hw.suffix (by
    rw [hgs]
    exact (List.suffix_append _ _).trans (List.suffix_cons _ _))
  obtain ⟨leads, slots, hpart⟩ := Parser.partition_clause hr hcolon.encloses hbody
  rw [hat] at hpart
  obtain rfl := hpart.lead_eq
  rw [hrest] at htail ⊢
  generalize hheader : Parser.raw s.source (.ofTokens t colon) .rawExpr nodes = header at hnode
  have hshape : step.node.shape =
      .caseClause (Parser.withLead header (texts none leads)).node (qs.map Placed.node) := by rw [hnode]
  -- the tokens from the clause's keyword to what follows the clause
  obtain ⟨opener, before, hpair⟩ := hw
  obtain ⟨a, b, hscan⟩ := hpair.holds
  have hinner := hscan.inner.right
  rw [hgs] at hinner
  have hbehind := hinner.tail.right.behind
  obtain ⟨core, sems, hafter, hsems, hrows, -, hnext, hk⟩ :=
    (Parser.specs hr _).clauseBody (Nat.lt_succ_self _) hbehind hbody
  rw [hafter] at hbehind
  obtain ⟨m, hcore, hmore⟩ := hbehind.split
  obtain ⟨ts, hts⟩ := tokens_next closer body.rest
  have hchain : Chain s.source.chars
      (colon :: tokens (core ++ sems) ++ [Parser.next closer body.rest]) := by
    have htokens : tokens [.pair .curly opener (before ++ .leaf t :: gs) closer] =
        (opener :: tokens before ++ t :: tokens (upTo (TokenGroup.isOp .colon) gs)) ++
          ((colon :: tokens (core ++ sems) ++ [Parser.next closer body.rest]) ++ ts) := by
      conv_lhs => rw [hgs, hafter]
      simp [hts]
    have := hscan.chain
    rw [htokens] at this
    exact this.right.left
  have hlined := (hrows.lined_of_forall hcore hk).mono (Parser.le_next hmore (Nat.le_refl _))
  have hoccupants : (body.nodes.map fun p => (⟨p, p.span.stop⟩ : Occupant)).map (·.stmt) =
      body.nodes := by
    rw [List.map_map]
    exact List.map_id _
  have hnext' : (Parser.next closer body.rest).isSemicolon = false := by
    cases hbr : body.rest with
    | nil => exact isSemicolon_closer hscan
    | cons g more =>
      obtain ⟨_, rfl, hg⟩ := Parser.of_isClause (hnext g (by simp [hbr]))
      exact hg
  have hmem {n : Node} (hn : n ∈ qs.map Placed.node) : n ∈ step.node.node.children := by
    rw [Node.children, Placed.node, Node.shape, hshape]
    exact List.mem_cons_of_mem _ hn
  have hstart : step.node.span.start = t.start := by rw [hnode]; rfl
  have hlt : t.start < colon.stop := by
    have hst : .leaf t :: (upTo (TokenGroup.isOp .colon) gs ++ .leaf colon :: rest) =
        (⟨.leaf t, upTo (TokenGroup.isOp .colon) gs ++ [.leaf colon]⟩ : Stretch).toList ++ rest := by
      simp [Stretch.toList]
    have := (hst ▸ hinner).left.lt (Token.isAutomatic_of_isSemicolon ht)
    simpa [Stretch.first, Stretch.last, TokenGroup.first, TokenGroup.last] using this
  have hu : Unwritten s.source.chars colon.stop
      ((body.nodes.map fun p => (⟨p, p.span.stop⟩ : Occupant)).map (·.stmt))
      (Parser.next closer body.rest).start := by
    refine unwritten_of_partition hs hpart fun x y hx hx' hsync hop => ?_
    rcases Nat.lt_or_ge x step.node.span.stop with hlt' | hge
    · obtain ⟨c, hmem, span, hspan, hsx, hsx'⟩ := he.here.unwritten (.inr (congrArg Shape.kind hshape))
        step.node.span rfl x y (by omega) hlt' hsync hop
      rw [Node.children, Placed.node, Node.shape, hshape] at hmem
      rcases List.mem_cons.1 hmem with rfl | hmem
      · have hspan' : (Parser.withLead header (texts none leads)).span = .ofTokens t colon := by
          rw [← hheader]
          cases texts none leads <;> rfl
        obtain rfl : _ = span := Option.some.inj hspan
        rw [hspan'] at hsx'
        exact absurd hsx' (Nat.not_lt.2 hx)
      · obtain ⟨q, hq, rfl⟩ := List.mem_map.1 hmem
        obtain rfl : _ = span := Option.some.inj hspan
        exact ⟨q, hq, hsx, hsx'⟩
    · exact absurd hop (htail x y hge hx' hsync)
  obtain ⟨-, hopens, hcourse⟩ := course_between hs (hoccupants.symm ▸ hrows) hsems hchain
    (by simp [Token.isSemicolon, hc]) hnext' (by simp [hc, Lexeme.endsLine]) hlined
    (List.forall_mem_map.2 fun p hp => ⟨hrows.sync_stop hcore p hp, Nat.le_refl _⟩) hu hpart
  have hline : colon.line = lineAt s.source.chars colon.stop := by
    refine TokenStream.line_token hs (hcolon.has.mem colon (by simp))
      (hchain.hop (t := colon) (by simp) (by simp [Token.isAutomatic, hc])) ?_
    rw [hc]
    decide
  have hcasts : ∀ x ∈ body.nodes.map fun p => (⟨p, p.span.stop⟩ : Occupant),
      x.Casts s.source.chars lost := by
    refine List.forall_mem_map.2 fun p hmem' => ?_
    have hoccupant := List.mem_map_of_mem (f := fun p => (⟨p, p.span.stop⟩ : Occupant)) hmem'
    obtain ⟨blank, text, hq⟩ := hpart.exists_of_mem hoccupant
    have hchild := hmem (List.mem_map_of_mem hq)
    obtain ⟨st, hst, hinfix⟩ := hrows.stands_infix p hmem'
    refine casts_stmt ih hs hr hst ?_ (hopens _ hoccupant) ?_ ?_ ?_ (hk p hmem')
    · have hafter := TokenStream.Has.of_infix hcolon.has.tail ⟨[], _, hafter.symm⟩
      exact hafter.of_infix hinfix
    · rw [← p.weight_laidOut blank text]
      exact (Node.weight_lt_of_mem_children hchild).trans hweight
    · exact (hp.children _ hchild).congr rfl rfl
    · exact (he.children _ hchild hst.isShown).relaid rfl rfl
  obtain ⟨m, e, htrail, hranks, hv⟩ := ranks_between hcourse hline hpart hcasts
  refine .clause (hchain.hop (t := Parser.next closer body.rest) (by simp)
    (Token.isAutomatic_of_isSemicolon hnext')) hv fun blank => ?_
  have hread := Parser.reads_header hinner (Parser.rawNodes_ok hr _) hnodes
  have hlaid : (step.node.laidOut blank none).node = .mk (some step.node.span)
      (step.node.laidOut blank none).layout none
      (.caseClause (Parser.withLead header (texts none leads)).node (qs.map Placed.node)) := by
    rw [hnode]
    rfl
  rw [hlaid]
  rw [hstart] at ho ⊢
  rw [hheader] at hread
  have hpieces : header.pieces = s.source.pieces (.ofTokens t colon) 0 nodes := by rw [← hheader]; rfl
  have hkind : header.shape.kind ≠ .block := by
    rw [← hheader]
    rintro ⟨⟩
  have hlies : Lies s.source.chars (.node header.node) t.start colon.stop := by
    have := hread.lies
    simpa [Stretch.first, Stretch.last, TokenGroup.first, TokenGroup.last] using this
  have hchild : (Parser.withLead header (texts none leads)).node ∈ step.node.node.children := by
    rw [Node.children, Placed.node, Node.shape, hshape]
    exact List.mem_cons_self ..
  have hshown : (Parser.withLead header (texts none leads)).node.isShown = true := by
    cases texts none leads <;> simp [Parser.withLead, Placed.node, Node.isShown, Node.pieces, hpieces,
      Source.pieces]
  have hheaderChildren : (Parser.withLead header (texts none leads)).node.children =
      header.shape.children := by
    cases texts none leads <;> rfl
  refine castsLine_clause rfl ho hpieces hkind hlt
    (copies_header ih hlies hpieces hkind fun n hn => ?_) ?_ htrail hranks hpart.fills
  · rw [← hheaderChildren] at hn
    exact ⟨(Node.weight_lt_of_mem_children hn).trans
      ((Node.weight_lt_of_mem_children hchild).trans hweight),
      (hp.children _ hchild).children _ hn, (he.children _ hchild hshown).children _ hn⟩
  · refine (dressed_of_attach hr (List.forall_mem_map.2 fun p hmem' => ?_) (spaced_of_forall hk) hat).2
    obtain ⟨st, hst⟩ := hrows.stands p hmem'
    exact ⟨hst.layout, hst.trailing, hst.ne_comment⟩

/-! ### Blocks -/

lemma isPlain_of_needsLine {p : Placed} {blank : Bool} {text : Option String}
    (h : needsLine (p.laidOut blank text).node = false) : p.shape.kind.isPlain = true ∧ text = none := by
  obtain ⟨span, shape, pieces, layout⟩ := p
  cases shape <;>
    simp_all [needsLine, Placed.laidOut, Placed.node, Node.shape, Node.layout, Kind.isPlain, Shape.kind]

lemma single_of_course {slots : List Slot} {os : List Occupant} {qs : List Placed}
    (h : Course src a (slots.flatMap Slot.entries) os b) (hf : List.Forall₂ Slot.Fills slots qs)
    (hos : os = [] ∨ ∃ x, os = [x]) (hneeds : (qs.map Placed.node).any needsLine = false)
    (hline : lineAt src b = lineAt src a)
    (hx : ∀ x ∈ os, x.stmt.shape.kind.isPlain = true → x.stop = x.stmt.span.stop ∧
      OpensLine src x.stmt.span.start ∧ x.stmt.span.start < x.stmt.span.stop ∧ ∀ blank,
        Casts src lost (x.stmt.laidOut blank none).node x.stmt.span.start x.stmt.span.stop) :
    Single src lost a qs b := by
  have hreach {x y : Nat} (hv : Vacant src x y) (hl : lineAt src y = lineAt src x) :
      Reach src x [] y := by
    obtain ⟨ms, hr, hm⟩ := hv
    exact (hr.lineAt_eq_iff_nil hm).1 hl ▸ hr
  cases hf with
  | nil =>
    cases h with
    | nil hv => exact .nil (hreach hv hline)
  | @cons slot q slots qs hq hqs =>
    obtain ⟨entry, cs⟩ := slot
    obtain ⟨blank, rfl⟩ := hq
    simp only [List.map_cons, List.any_cons, Bool.or_eq_false_iff] at hneeds
    obtain ⟨hplain, hnone⟩ := isPlain_of_needsLine hneeds.1
    obtain rfl : cs = [] := by
      cases cs with
      | nil => rfl
      | cons c cs =>
        obtain ⟨text, ht, -⟩ := toList_texts c.text cs
        cases ht.symm.trans hnone
    cases entry with
    | comment c => cases hplain
    | stmt p =>
      cases h with
      | @stmt _ _ x _ os hv rest =>
        obtain rfl : os = [] := by
          rcases hos with h | ⟨y, h⟩
          · cases h
          · exact (List.cons.inj h).2
        obtain ⟨hstop, ho, hlt, hcasts⟩ := hx x (by simp) hplain
        cases hqs with
        | nil =>
          cases rest with
          | nil hv' =>
            rw [hstop] at hv'
            have hle := @lineAt_add src _ _ hv.choose_spec.1.le
            have hle' := @lineAt_add src _ _ hlt.le
            have hle'' := @lineAt_add src _ _ hv'.choose_spec.1.le
            have hline' : lineAt src b = lineAt src x.stmt.span.stop := by omega
            exact .stmt (q := x.stmt.laidOut blank none) hv ho hlt (hcasts blank) (hreach hv' hline')
        | @cons slot q _ _ hq _ =>
          obtain ⟨entry, cs⟩ := slot
          obtain ⟨blank', rfl⟩ := hq
          simp only [List.map_cons, List.any_cons, Bool.or_eq_false_iff] at hneeds
          cases entry with
          | comment c => cases (isPlain_of_needsLine hneeds.2.1).1
          | stmt => cases rest

lemma Lined.le_start {os : List Occupant} (h : Lined a os b) : ∀ x ∈ os, a ≤ x.stmt.span.start := by
  induction os generalizing a with
  | nil => simp
  | cons x os ih =>
    obtain ⟨hm, hle, -, h⟩ := h
    exact List.forall_mem_cons.2 ⟨hm, fun y hy => (hm.trans hle).trans (ih h y hy)⟩

lemma Lined.apart {os : List Occupant} (h : Lined a os b) :
    os.Pairwise fun x y => x.stop ≤ y.stmt.span.start := by
  induction os generalizing a with
  | nil => exact .nil
  | cons o os ih =>
    obtain ⟨-, -, -, h⟩ := h
    exact .cons h.le_start (ih h)

lemma Lined.stop_le {os : List Occupant} (h : Lined a os b) : ∀ x ∈ os, x.stop ≤ b := by
  induction os generalizing a with
  | nil => simp
  | cons o os ih =>
    obtain ⟨-, -, -, h⟩ := h
    exact List.forall_mem_cons.2 ⟨h.le, ih h⟩

lemma Occupant.IsClause.stop_le (hr : Remarks line s.comments) {closer : Token}
    {inner : List TokenGroup} {o : Occupant} (hs : Scanned s.source.chars a inner closer.start)
    (hc : Sync s.source.chars closer.start)
    (h : o.IsClause s closer inner) :
    Sync s.source.chars o.stop ∧ o.stmt.span.stop ≤ o.stop := by
  obtain ⟨t, gs, step, ⟨ys, rfl⟩, hclause, hstep, rfl⟩ := h
  obtain ⟨_, ht', ht⟩ := Parser.of_isClause hclause
  cases ht'
  obtain ⟨st, sems, hst, -, hstands, -⟩ :=
    (Parser.specs hr _).clause (Nat.lt_succ_self _) hs.right ht hstep
  have hscan := hs.right
  rw [hst] at hscan
  obtain ⟨-, -, hrest⟩ := hscan.around [] st
  have hstop : step.node.span.stop = st.last.stop := by rw [hstands.span_eq]; rfl
  refine ⟨?_, hstop ▸ Parser.le_next hrest (Nat.le_refl _)⟩
  cases hmore : step.rest with
  | nil => exact hc
  | cons g more =>
    obtain ⟨ts, hts⟩ := g.spelled_eq_first
    exact (hrest.chain.mem (t := g.first) (by simp [hmore, hts])).1

lemma Laid.of_block {n : Node} (h : Lies src (.node n) a b) (hk : n.kind = .block) :
    ∃ span, n.span = some span ∧ a = span.start ∧ b = span.stop := by
  generalize hn : Part.node n = part at h
  cases h with
  | woven hk' =>
    cases hn
    exact absurd hk hk'
  | block hstop =>
    cases hn
    exact ⟨_, rfl, rfl, hstop.symm⟩
  | _ => cases hn

lemma casts_of_block {k : Nat} (ih : CastsBelow s lost k) (hs : TokenStream.ofSource s.source = .ok s)
    (hr : Remarks line s.comments) {n : Node} (hweight : n.weight ≤ k) (hk : n.kind = .block)
    (hp : Parted s n) (he : n.Each (Node.Castable s.source.chars lost))
    (hlies : Lies s.source.chars (.node n) a b) : Casts s.source.chars lost n a b := by
  have hread := hp.isRead
  cases hread with
  | clause _ _ hstep _ hshape =>
    obtain ⟨_, _, _, _, _, _, _, _, _, _, _, _, hnode⟩ := Parser.of_clause hstep
    rw [hnode] at hshape
    cases hk.symm.trans (congrArg Shape.kind hshape)
  | other hb =>
    rw [hk] at hb
    cases hb
  | label _ _ _ _ hshape => cases hk.symm.trans (congrArg Shape.kind hshape)
  | labeled _ _ _ _ _ _ hshape => cases hk.symm.trans (congrArg Shape.kind hshape)
  | @block o c inner os h hos hspan hshape =>
    obtain ⟨a', b', hscan⟩ := h.holds
    obtain ⟨hopen, hclose⟩ := hscan.brackets
    obtain ⟨core, sems, hinner, hsems, hrows, hsp, hord⟩ :=
      (Parser.specs hr _).items (Nat.lt_succ_self _) hscan.inner hos
    obtain ⟨leads, slots, hpart⟩ := Parser.partition_block hr hscan hos
    have hin := hscan.inner
    rw [hinner] at hin
    have hord := hord (Nat.le_refl _)
    have hlined : Lined o.stop os c.start := hrows.lined hin.left hsp hord
    have hwithin : s.Within inner c := ⟨o, [], h⟩
    have hstops : ∀ x ∈ os, Sync s.source.chars x.stop ∧ x.stmt.span.stop ≤ x.stop := by
      intro x hx
      by_cases hxk : x.stmt.shape.kind = .caseClause
      · exact (isClause_of_items hr hscan.inner hos x hx hxk).stop_le hr hscan.inner
          (hscan.inner.sync_right)
      · rw [(hord x hx).stop_eq hxk]
        exact ⟨hrows.sync_stop hin.left _ (List.mem_map_of_mem hx), Nat.le_refl _⟩
    have hu : Unwritten s.source.chars o.stop (os.map (·.stmt)) c.start := by
      refine unwritten_of_partition hs hpart fun x y hx hx' hsync hop => ?_
      have hle := hopen.lt
      have hle' := hclose.lt
      obtain ⟨d, hd, span, hdspan, hdx, hdx'⟩ := he.here.unwritten (.inl hk) _ hspan x y
        (show o.start ≤ x by omega) (show x < c.stop by omega) hsync hop
      rw [Node.children, hshape] at hd
      obtain ⟨q, hq, rfl⟩ := List.mem_map.1 hd
      obtain rfl : _ = span := Option.some.inj hdspan
      exact ⟨q, hq, hdx, hdx'⟩
    have hchain : Chain s.source.chars (o :: tokens (core ++ sems) ++ [c]) := by
      have := hscan.chain
      rw [hinner] at this
      simpa using this
    have hopener : o.lexeme = .op (.opening .curly) ∧ c.lexeme = .op (.closing .curly) := by
      have hm := hscan.matched _ (List.mem_cons_self ..)
      cases hm with
      | pair ho hc _ => exact ⟨ho, hc⟩
    obtain ⟨hstrides, hopens, hcourse⟩ := course_between hs hrows hsems hchain
      (by simp [Token.isSemicolon, hopener.1]) (by simp [Token.isSemicolon, hopener.2])
      (by simp [hopener.1, Lexeme.endsLine]) hlined hstops hu hpart
    have hline : o.line = lineAt s.source.chars o.stop := by
      refine TokenStream.line_token hs (h.mem o (by simp)) (hopener.1 ▸ hopen) ?_
      rw [hopener.1]
      decide
    have hchild : ∀ x ∈ os, ∃ blank text, (x.stmt.laidOut blank text).node ∈ n.children := by
      intro x hx
      obtain ⟨blank, text, hq⟩ := hpart.exists_of_mem hx
      refine ⟨blank, text, ?_⟩
      rw [Node.children, hshape]
      exact List.mem_map_of_mem hq
    have hpx : ∀ x ∈ os, x.stmt.node.weight < k ∧ Parted s x.stmt.node ∧
        x.stmt.node.Each (Node.Castable s.source.chars lost) := by
      intro x hx
      obtain ⟨blank, text, hq⟩ := hchild x hx
      obtain ⟨st, hst⟩ := hrows.stands x.stmt (List.mem_map_of_mem hx)
      rw [← x.stmt.weight_laidOut blank text]
      exact ⟨(Node.weight_lt_of_mem_children hq).trans_le hweight,
        (hp.children _ hq).congr rfl rfl, (he.children _ hq hst.isShown).relaid rfl rfl⟩
    have hcasts : ∀ x ∈ os, x.Casts s.source.chars lost := by
      intro x hx
      obtain ⟨hxw, hxp, hxe⟩ := hpx x hx
      by_cases hxk : x.stmt.shape.kind = .caseClause
      · refine casts_clause ih hs hr hwithin (isClause_of_items hr hscan.inner hos x hx hxk) hxw hxp hxe
          (hopens x hx) fun y z hy hy' hsync hop => ?_
        -- another statement would have to stand where the comments of the clause do
        obtain ⟨-, hbounds⟩ := hstrides.bounds
        have hxb := hbounds _ (List.mem_map_of_mem hx)
        obtain ⟨l, r, rfl⟩ := List.append_of_mem hx
        obtain ⟨-, hapart, hbefore⟩ := List.pairwise_append.1 hlined.apart
        have hxc := hlined.stop_le x (by simp)
        obtain ⟨q, hq, hqy, hqy'⟩ := hu y z (by omega) (by omega) hsync hop
        obtain ⟨w, hw, rfl⟩ := List.mem_map.1 hq
        have hwstop := (hstops w hw).2
        rcases List.mem_append.1 hw with hw | hw
        · have := hbefore w hw x (by simp)
          omega
        · rcases List.mem_cons.1 hw with rfl | hw
          · omega
          · have := (List.pairwise_cons.1 hapart).1 w hw
            omega
      · obtain ⟨st, hst, hinfix⟩ := hrows.stands_infix x.stmt (List.mem_map_of_mem hx)
        have hitems := TokenStream.Has.of_infix h.inner ⟨[], sems, hinner.symm⟩
        have := casts_stmt ih hs hr hst (TokenStream.Has.of_infix hitems hinfix)
          (hopens x hx) hxw hxp hxe hxk
        rwa [← (hord x hx).stop_eq hxk] at this
    obtain ⟨m, e, htrail, hranks, hv⟩ := ranks_between hcourse hline hpart hcasts
    have hostop : o.stop = o.start + 1 := hopen.stop_eq
    have hcstop : c.stop = c.start + 1 := hclose.stop_eq
    obtain ⟨rfl, rfl⟩ : a = o.start ∧ b = c.start + 1 := by
      obtain ⟨span, hspan', rfl, rfl⟩ := hlies.of_block hk
      obtain rfl := Option.some.inj (hspan'.symm.trans hspan)
      exact ⟨rfl, hcstop⟩
    have hn : n = .mk n.span n.layout n.pieces n.shape := by cases n; rfl
    rw [hn, hshape]
    rw [hostop] at hopen htrail
    rw [hcstop] at hclose
    rw [hpart.lead_eq]
    refine casts_block hopen hclose htrail hranks hpart.fills hv fun hone hleads hneeds => ?_
    obtain rfl := hleads
    have hcline : c.line = lineAt s.source.chars c.start :=
      ((TokenStream.lies_tile hs).1 c (h.mem c (by simp)) (by simp [Token.isAutomatic, hopener.2])).line
    have hone' : lineAt s.source.chars c.start = lineAt s.source.chars o.stop := by
      rw [← hcline, ← hline]
      exact (of_decide_eq_true hone).symm
    have hclauses : ∀ p ∈ os.map (·.stmt), p.shape.kind ≠ .caseClause := by
      refine List.forall_mem_map.2 fun x hx hxk => ?_
      obtain ⟨blank, text, hq⟩ := hpart.exists_of_mem hx
      have hneed := List.any_eq_false.1 hneeds _ (List.mem_map_of_mem hq)
      have hplain := (isPlain_of_needsLine (by simpa using hneed)).1
      rw [hxk] at hplain
      cases hplain
    rw [← hostop]
    refine single_of_course hcourse hpart.fills ?_ hneeds hone' fun x hx hplain => ?_
    · rcases hstrides.single hclauses hone' with hnil | ⟨p, hp⟩
      · exact .inl (List.map_eq_nil_iff.1 hnil)
      · obtain ⟨x, rfl, -⟩ := List.map_eq_singleton_iff.1 hp
        exact .inr ⟨x, rfl⟩
    · have hxk : x.stmt.shape.kind ≠ .caseClause := by
        intro hxk
        rw [hxk] at hplain
        cases hplain
      obtain ⟨hxw, hxp, hxe⟩ := hpx x hx
      obtain ⟨st, hst, -⟩ := hrows.stands_infix x.stmt (List.mem_map_of_mem hx)
      have hlies' := hst.lies x.stmt.layout hst.layout fun _ => hst.trailing
      have hxspan : st.first.start = x.stmt.span.start ∧ st.last.stop = x.stmt.span.stop := by
        rw [hst.span_eq]
        exact ⟨rfl, rfl⟩
      rw [hxspan.1, hxspan.2] at hlies'
      refine ⟨(hord x hx).stop_eq hxk, hopens x hx,
        (hstrides.bounds.2 _ (List.mem_map_of_mem hx)).2.1, fun blank => ?_⟩
      exact ih (x.stmt.laidOut blank none).node ((x.stmt.weight_laidOut blank none).trans_lt hxw)
        (hxp.congr rfl rfl) (hxe.relaid rfl rfl) _ _ (Laid.relayout (hlies'.of_line hplain) _)

/-! ### Whole trees -/

theorem casts_of_parted (hs : TokenStream.ofSource s.source = .ok s) (hr : Remarks line s.comments)
    (k : Nat) : CastsBelow s lost k := by
  induction k with
  | zero => exact fun n hn => absurd hn (Nat.not_lt_zero _)
  | succ k ih =>
    intro n hn hp he a b hlies
    by_cases hk : n.kind = .block
    · exact casts_of_block ih hs hr (Nat.le_of_lt_succ hn) hk hp he hlies
    · refine casts_woven hlies hk fun c hc a b hl => ?_
      exact ih c ((Node.weight_lt_of_mem_children hc).trans_le (Nat.le_of_lt_succ hn))
        (hp.children c hc) (he.children c hc hl.isShown) a b hl

end ParallelTests
