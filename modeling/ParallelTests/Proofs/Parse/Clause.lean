import ParallelTests.Proofs.Parse.Items

namespace ParallelTests

open Scan TokenGroup

namespace Rows

variable {src : List Char} {fresh : Bool} {gs : List TokenGroup} {ps : List Placed}

lemma last_span (h : Rows src fresh gs ps) {t : Token} {p : Placed} (hs : p.span.stop = t.stop)
    (he : p.span.endLine = t.endLine) :
    (ps.getLastD p).span.stop = ((tokens gs).getLastD t).stop ∧
      (ps.getLastD p).span.endLine = ((tokens gs).getLastD t).endLine := by
  induction h generalizing t p with
  | nil => exact ⟨hs, he⟩
  | @cons _ _ sems gs st q ps _ _ hp _ _ ih =>
    obtain ⟨ls, hls⟩ := st.tokens_eq_last
    rw [tokens_append, tokens_append, List.getLastD_append_right, List.getLastD_append_right, hls,
      List.getLastD_concat, List.getLastD_cons]
    exact ih (by rw [hp.span_eq]; rfl) (by rw [hp.span_eq]; rfl)

end Rows

lemma spaced_of_forall {stop : Nat} {ps : List Placed} (h : ∀ p ∈ ps, p.shape.kind ≠ .caseClause) :
    Spaced stop (ps.map fun p => ⟨p, p.span.stop⟩) := by
  induction ps with
  | nil => trivial
  | cons p ps ih =>
    obtain ⟨hp, hps⟩ := List.forall_mem_cons.1 h
    exact ⟨fun he => absurd he hp, ih hps⟩

lemma Rows.lined_of_forall {src : List Char} {fresh : Bool} {gs : List TokenGroup} {ps : List Placed}
    {a b : Nat} (h : Rows src fresh gs ps) (hs : Scanned src a gs b)
    (hk : ∀ p ∈ ps, p.shape.kind ≠ .caseClause) : Lined a (ps.map fun p => ⟨p, p.span.stop⟩) b := by
  have hrows : Rows src fresh gs ((ps.map fun p => (⟨p, p.span.stop⟩ : Occupant)).map (·.stmt)) := by
    rw [List.map_map]
    exact (List.map_id ps).symm ▸ h
  refine hrows.lined hs (spaced_of_forall hk) (List.forall_mem_map.2 fun p hp => ?_)
  obtain ⟨st, hst⟩ := h.stands p hp
  exact ⟨fun _ => rfl, (hst.ordered (hk p hp)).starts⟩

namespace Parser

variable {s : TokenStream} {line : Nat} {gs : List TokenGroup}

lemma of_isColon {g : TokenGroup} (h : g.isOp .colon = true) :
    ∃ t, g = .leaf t ∧ t.lexeme = .op .colon := by
  cases g with
  | leaf t => exact ⟨t, rfl, by simpa [TokenGroup.isOp, Token.isOp] using h⟩
  | pair => simp [TokenGroup.isOp] at h

def withLead (header : Placed) (lead : Option String) : Placed :=
  match lead with
  | none => header
  | some text => { header with pieces := header.pieces.map (· ++ [.text (" " ++ text)]) }

lemma node_withLead (header : Placed) {ps : List Piece} {lead : Option String}
    (hp : header.pieces = some ps) (hl : ∀ text ∈ lead, IsNote text) :
    ∃ tail, (tail = [] ∨ ∃ text, IsNote text ∧ tail = [.text (" " ++ text)]) ∧
      (withLead header lead).node =
        .mk (some header.span) header.layout (some (ps ++ tail)) header.shape := by
  cases lead with
  | none => exact ⟨[], .inl rfl, by rw [withLead, Placed.node, hp, List.append_nil]⟩
  | some text =>
    refine ⟨_, .inr ⟨text, hl text rfl, rfl⟩, ?_⟩
    rw [withLead, Placed.node, hp]
    rfl

lemma last_clause (t colon : Token) (head core : List TokenGroup) :
    (⟨.leaf t, head ++ .leaf colon :: core⟩ : Stretch).last = (tokens core).getLastD colon := by
  rw [Stretch.last_eq_getLastD _ t]
  simp only [Stretch.toList, tokens_cons, tokens_append, spelled_leaf]
  rw [List.getLastD_append_right, List.getLastD_append_right, List.getLastD_append_right]
  rfl

lemma rowed_header {t colon : Token} {head rest : List TokenGroup} {nodes : List Placed} {a b : Nat}
    (hs : Scanned s.source.chars a (.leaf t :: (head ++ .leaf colon :: rest)) b)
    (hn : RawNodesSpec s head) (hnodes : rawNodes s false head = .ok nodes) :
    Rowed s.source.chars t.start nodes colon.stop ∧ ∀ p ∈ nodes, p.shape.kind = .funcLit := by
  have hsplit : .leaf t :: (head ++ .leaf colon :: rest) =
      (⟨.leaf t, head ++ [.leaf colon]⟩ : Stretch).toList ++ rest := by simp [Stretch.toList]
  have hend : (⟨.leaf t, head ++ [.leaf colon]⟩ : Stretch).last = colon :=
    Stretch.last_append (.leaf t) head ⟨.leaf colon, []⟩
  rw [hsplit] at hs
  have htrim := hs.left.trim.1.tail
  rw [hend] at htrim
  exact hn htrim.left hnodes

lemma reads_header {t colon : Token} {head rest : List TokenGroup} {nodes : List Placed} {a b : Nat}
    (hs : Scanned s.source.chars a (.leaf t :: (head ++ .leaf colon :: rest)) b)
    (hn : RawNodesSpec s head) (hnodes : rawNodes s false head = .ok nodes) :
    Reads s.source.chars (raw s.source (.ofTokens t colon) .rawExpr nodes)
      ⟨.leaf t, head ++ [.leaf colon]⟩ := by
  obtain ⟨hr, hk⟩ := rowed_header hs hn hnodes
  have hend : (⟨.leaf t, head ++ [.leaf colon]⟩ : Stretch).last = colon :=
    Stretch.last_append (.leaf t) head ⟨.leaf colon, []⟩
  refine reads_raw ?_ ?_ (fun _ => rfl) (fun _ => rfl) (List.forall_mem_map.2 hk) (by rintro ⟨⟩) hk
  · rw [Stretch.span, hend]
    rfl
  · rwa [hend]

lemma stands_clause {t colon : Token} {head core : List TokenGroup} {nodes ps qs : List Placed}
    {lead : Option String} {span : Span} {a b : Nat}
    (hs : Scanned s.source.chars a (.leaf t :: (head ++ .leaf colon :: core)) b)
    (ht : t.isSemicolon = false) (hc : colon.lexeme = .op .colon)
    (hn : RawNodesSpec s head) (hnodes : rawNodes s false head = .ok nodes)
    (hrows : Rows s.source.chars true core ps) (hd : Dressed ps qs)
    (hl : ∀ text ∈ lead, IsNote text)
    (hspan : span = (⟨.leaf t, head ++ .leaf colon :: core⟩ : Stretch).span) :
    Stands s.source.chars
      { span := span,
        shape := .caseClause
          (withLead (raw s.source (.ofTokens t colon) .rawExpr nodes) lead).node (qs.map Placed.node) }
      ⟨.leaf t, head ++ .leaf colon :: core⟩ := by
  have hcolon : colon.isSemicolon = false := by simp [Token.isSemicolon, hc]
  have hlast := last_clause t colon head core
  have hch : Chain s.source.chars (t :: tokens head ++ colon :: tokens core) := by
    simpa using hs.chain
  have hmt := hch.mem (t := t) (by simp)
  have hmc := hch.mem (t := colon) (by simp)
  obtain ⟨hr, -⟩ := rowed_header hs hn hnodes
  have hheader := (reads_header hs hn hnodes).woven.formed
  obtain ⟨tail, htail, hnode⟩ :=
    node_withLead (raw s.source (.ofTokens t colon) .rawExpr nodes) rfl hl
  have hle : t.start ≤ colon.start :=
    hmt.2.2.trans ((List.pairwise_cons.1 hch.pairwise).1 colon (by simp))
  obtain ⟨ms, hreach⟩ := hmt.1.to hmc.1 hle
  have hbody := hrows.lies hd hch.right hcolon (by simp [hc, Lexeme.endsLine])
  rw [hc] at hbody
  have hwoven := hd.forall_woven hrows.forall_woven
  refine ⟨hspan, sound_default, rfl, fun layout _ htr => ?_,
    .clause rfl (.mk ⟨?_, ?_⟩ rfl ?_) rfl ?_ ?_, rfl, (by rintro ⟨⟩), ht, ?_, fun h => absurd rfl h⟩
  · rw [hlast, Placed.node, hnode]
    refine .clause (htr rfl) (by rintro ⟨⟩) hmt.1 (hr.weave fun i p hp => ?_) htail
      (hreach.trans (.single (hc ▸ hch.hop (by simp) ?_))) hbody
    · rw [Nat.zero_add]
      exact (List.getElem?_map ..).trans (by rw [hp]; rfl)
    · simp [Token.isAutomatic, hc]
  · rw [hnode]
    rfl
  · exact List.forall_mem_map.2 fun q hq => (hwoven q hq).2
  · rw [hnode]
    refine List.forall_mem_cons.2 ⟨.mk hheader.proper ⟨rfl, ?_⟩ fun c hc => hheader.child hc,
      List.forall_mem_map.2 fun q hq => (hwoven q hq).1.formed⟩
    rcases htail with rfl | ⟨text, _, rfl⟩
    · rw [List.append_nil]
      exact hheader.backed.2
    · exact hheader.backed.2.append_text
  · rw [hnode]
    exact List.forall_mem_map.2 hr.forall_woven
  · exact List.forall_mem_map.2 fun q hq => (hwoven q hq).1
  · rw [hlast]
    exact hrows.last hcolon

lemma starts_withLead (header : Placed) (lead : Option String) :
    (withLead header lead).node.starts = header.node.starts := by
  cases lead <;> simp [withLead, Placed.starts_node, Placed.inner]

lemma rising_clause {t colon : Token} {head rest : List TokenGroup} {nodes qs : List Placed}
    {lead : Option String} {span : Span} {a b c : Nat}
    (hs : Scanned s.source.chars a (.leaf t :: (head ++ .leaf colon :: rest)) b)
    (ht : t.isSemicolon = false) (hn : RawNodesSpec s head) (hnodes : rawNodes s false head = .ok nodes)
    (hq : Rising colon.stop (startsIn qs) c) (hc : colon.stop ≤ c) (hspan : span.start = t.start) :
    Rising span.start
      (Placed.node
        { span := span,
          shape := .caseClause
            (withLead (raw s.source (.ofTokens t colon) .rawExpr nodes) lead).node
            (qs.map Placed.node) }).starts c := by
  have hlt : t.start < t.stop :=
    (hs.chain.hop (t := t) (by simp) (Token.isAutomatic_of_isSemicolon ht)).lt
  obtain ⟨hhead, hcolon, -⟩ := Scanned.around head ⟨.leaf colon, []⟩ hs.behind
  have hle : t.stop ≤ colon.start := hhead.le
  have hle' : colon.start ≤ colon.stop := hcolon.le
  have hheader : (raw s.source (.ofTokens t colon) .rawExpr nodes).node.starts = startsIn nodes :=
    (Placed.starts_node _).trans (flatMap_starts nodes)
  have hrise := (hn hhead hnodes).1.rising.append hq hle' (hle.trans hle') (hle'.trans hc)
  rw [Placed.starts_node, Placed.inner, Shape.children, List.flatMap_cons, flatMap_starts,
    starts_withLead, hheader]
  have hlt' : span.start < c := by omega
  exact (hrise.mono (hspan ▸ hlt) (Nat.le_refl c)).cons (Nat.le_refl _) hlt'

lemma le_next {closer : Token} {sems rest : List TokenGroup} {a b : Nat}
    (hs : Scanned s.source.chars a (sems ++ rest) b) (hb : b ≤ closer.start) :
    a ≤ (next closer rest).start := by
  cases rest with
  | nil => exact hs.le.trans hb
  | cons g rest =>
    obtain ⟨ts, hts⟩ := g.spelled_eq_first
    exact (hs.right.bounds g.first (by simp [tokens_cons, hts])).1

lemma of_clause {t closer : Token} {gs : List TokenGroup} {step : Step gs}
    (h : clause s t closer gs = .ok step) : ∃ colon rest nodes, ∃ body : Steps rest, ∃ qs lead,
      since (TokenGroup.isOp .colon) gs = .leaf colon :: rest ∧ colon.lexeme = .op .colon ∧
        rawNodes s false (upTo (TokenGroup.isOp .colon) gs) = .ok nodes ∧
        clauseBody s closer rest = .ok body ∧
        Attach.attach s.comments colon (next closer body.rest) (body.nodes.map fun p => ⟨p, p.span.stop⟩) =
          (qs, lead) ∧ step.rest = body.rest ∧
        step.node =
          let header := withLead (raw s.source (.ofTokens t colon) .rawExpr nodes) lead
          { span := (Span.ofTokens t colon).through (body.nodes.getLastD header).span
            shape := .caseClause header.node (qs.map Placed.node) } := by
  rw [clause] at h
  split at h
  · simp [fail] at h
  · next colon rest hsince =>
    have hcol := (of_since hsince).1
    obtain ⟨colon, rfl, hc⟩ := of_isColon hcol
    obtain ⟨nodes, hnodes, h⟩ := Except.bind_eq_ok_iff.1 h
    obtain ⟨body, hbody, h⟩ := Except.bind_eq_ok_iff.1 h
    dsimp only [TokenGroup.first] at h
    obtain ⟨⟨qs, lead⟩, hat⟩ : ∃ r, Attach.attach s.comments colon (next closer body.rest)
      (body.nodes.map fun p => ⟨p, p.span.stop⟩) = r := ⟨_, rfl⟩
    rw [hat] at h
    obtain rfl := Except.pure_eq_ok_iff.1 h
    refine ⟨colon, rest, nodes, body, qs, lead, hsince, hc, hnodes, hbody, hat, rfl, ?_⟩
    cases lead <;> rfl

lemma clause_spec (hr : Remarks line s.comments) (ih : Specs s (8 * size gs + 5)) :
    ClauseSpec s gs := by
  intro t closer step a b hs ht h
  rw [clause] at h
  split at h
  · simp [fail] at h
  · next colon after hsince =>
    obtain ⟨hcol, hgs⟩ := of_since hsince
    obtain ⟨colon, rfl, hc⟩ := of_isColon hcol
    obtain ⟨nodes, hnodes, h⟩ := Except.bind_eq_ok_iff.1 h
    obtain ⟨body, hbody, h⟩ := Except.bind_eq_ok_iff.1 h
    dsimp only [TokenGroup.first] at h
    obtain ⟨⟨qs, lead⟩, hat⟩ : ∃ r, Attach.attach s.comments colon (next closer body.rest)
      (body.nodes.map fun p => ⟨p, p.span.stop⟩) = r := ⟨_, rfl⟩
    rw [hat] at h
    obtain rfl := Except.pure_eq_ok_iff.1 h
    have hsize := size_append (upTo (TokenGroup.isOp .colon) gs) (.leaf colon :: after)
    rw [← hgs, size_cons, weight_leaf] at hsize
    have hs' := hs
    rw [hgs] at hs'
    obtain ⟨core, sems, hafter, hsems, hrows, hclosed, hnext, hk⟩ :=
      ih.clauseBody (by omega) hs'.tail.right.tail hbody
    have hoccupants : (body.nodes.map fun p => (⟨p, p.span.stop⟩ : Occupant)).map (·.stmt) =
        body.nodes := by
      rw [List.map_map]
      exact List.map_id _
    have hsound : ∀ o ∈ body.nodes.map fun p => (⟨p, p.span.stop⟩ : Occupant),
        o.stmt.layout.Sound ∧ o.stmt.layout.trailing = none ∧ o.stmt.shape.kind ≠ .comment := by
      refine List.forall_mem_map.2 fun p hp => ?_
      obtain ⟨st, hst⟩ := hrows.stands p hp
      exact ⟨hst.layout, hst.trailing, hst.ne_comment⟩
    obtain ⟨hd, hl⟩ := dressed_of_attach hr hsound (spaced_of_forall hk) hat
    rw [hoccupants] at hd
    have hst : .leaf t :: gs =
        (⟨.leaf t, upTo (TokenGroup.isOp .colon) gs ++ .leaf colon :: core⟩ : Stretch).toList ++
          (sems ++ body.rest) :=
      calc .leaf t :: gs
        _ = .leaf t :: (upTo (TokenGroup.isOp .colon) gs ++ .leaf colon :: after) :=
          congrArg (_ :: ·) hgs
        _ = .leaf t :: (upTo (TokenGroup.isOp .colon) gs ++ .leaf colon ::
              (core ++ (sems ++ body.rest))) :=
          congrArg (fun x => .leaf t :: (upTo (TokenGroup.isOp .colon) gs ++ .leaf colon :: x)) hafter
        _ = _ := by simp [Stretch.toList]
    have hspan : ∀ header : Placed, header.span = .ofTokens t colon →
        header.span.through (body.nodes.getLastD header).span =
          (⟨.leaf t, upTo (TokenGroup.isOp .colon) gs ++ .leaf colon :: core⟩ : Stretch).span := by
      intro header hh
      obtain ⟨hstop, hend⟩ := hrows.last_span (p := header) (t := colon) (by rw [hh]; rfl)
        (by rw [hh]; rfl)
      rw [Stretch.span, last_clause, Span.through, hstop, hend, hh]
      rfl
    rw [hst] at hs
    refine ⟨_, sems, hst, hsems, stands_clause hs.left ht hc (ih.rawNodes (by omega)) hnodes hrows hd hl
      (hspan _ (by cases lead <;> rfl)), rfl, ?_, hnext, fun hb => ?_⟩
    · rw [last_clause]
      rcases hclosed with rfl | hclosed
      · exact .inl hc
      · exact .inr hclosed
    · have hbehind := hs'.tail.right.behind
      rw [hafter] at hbehind
      obtain ⟨m, hcore, hrest⟩ := hbehind.split
      have hlined := (hrows.lined_of_forall hcore hk).mono (le_next hrest hb)
      exact rising_clause hs' ht (ih.rawNodes (by omega)) hnodes
        (Attach.rising_attach hr.ascending hlined hat) hlined.le (by cases lead <;> rfl)

end Parser

end ParallelTests
