import ParallelTests.Proofs.Parse.Simple

namespace ParallelTests

open Scan TokenGroup

lemma Laid.relayout {src : List Char} {extra : Nat → List Lexeme} {p : Placed} {a b : Nat}
    (h : Laid src extra (.node p.node) a b) (layout : Layout) :
    Laid src extra (.node { p with layout := layout }.node) a b := by
  generalize hn : Part.node p.node = part at h
  cases h with
  | woven hk h =>
    obtain ⟨span, shape, pieces, _⟩ := p
    simp only [Placed.node, Part.node.injEq, Node.mk.injEq] at hn
    obtain ⟨rfl, rfl, rfl, rfl⟩ := hn
    exact .woven hk h
  | block hstop ho hc hsync hv he he' hone hl h =>
    obtain ⟨span, shape, pieces, _⟩ := p
    simp only [Placed.node, Part.node.injEq, Node.mk.injEq, Option.some.injEq] at hn
    obtain ⟨rfl, rfl, rfl, rfl⟩ := hn
    exact .block hstop ho hc hsync hv he he' hone hl h
  | _ => simp at hn

namespace Parser

variable {s : TokenStream} {st : Stretch} {gs : List TokenGroup}

lemma sound_default : ({} : Layout).Sound :=
  ⟨by simp, by simp⟩

lemma sound_indented (src : Source) (p : Placed) (h : p.layout = {}) :
    (indented src p).layout.Sound ∧ (indented src p).layout.trailing = none := by
  simp only [indented, h]
  refine ⟨⟨by simp, fun text ht c hc => ?_⟩, trivial⟩
  simp only [Source.indentAt] at ht
  split at ht
  · next hall =>
    obtain rfl := Option.some.inj ht
    rw [String.toList_ofList] at hc
    have := List.all_eq_true.1 hall c hc
    simp only [Bool.or_eq_true, decide_eq_true_eq] at this
    rcases this with rfl | rfl <;> rfl
  · simp at ht

lemma stands_indented {p : Placed} (h : Stands s.source.chars p st) (hl : p.layout = {}) :
    Stands s.source.chars (indented s.source p) st := by
  obtain ⟨hi, ht⟩ := sound_indented s.source p hl
  exact ⟨h.span_eq, hi, ht, h.lies, h.woven.congr rfl rfl rfl, h.isStmt, h.ne_comment, h.first, h.last,
    fun hk => (h.ordered hk).congr rfl rfl⟩

lemma isPlain_or_labeled {k : Kind} (h : k.isStmt = true) (hc : k ≠ .comment)
    (hcl : k ≠ .caseClause) : k.isPlain = true ∨ k = .labeled := by
  cases k <;> simp_all [Kind.isStmt, Kind.isPlain]

lemma TakesBare.stmt {p : Placed} {rest : List TokenGroup} {a b : Nat}
    (h : TakesBare s.source.chars gs p rest) (hs : Scanned s.source.chars a gs b)
    (hg : ∀ g ∈ gs.head?, g.isSemicolon = false) : TakesStmt s.source.chars gs p rest := by
  obtain ⟨st, rfl, hread, ⟨hstmt, hplain⟩, hlast⟩ := h
  have hne (k : Kind) (hk : k.isPlain = false) : p.shape.kind ≠ k := by
    rintro rfl
    simp [hplain] at hk
  refine ⟨st, rfl, ⟨hread.span_eq, ?_, ?_, fun layout hl _ => .plain hplain hl (hread.lies.relayout layout),
    hread.woven, hstmt, hne _ rfl, ?_, hlast, fun _ => hread.ordered⟩, hread.layout_eq, hne _ rfl⟩
  · rw [hread.layout_eq]
    exact sound_default
  · rw [hread.layout_eq]
  · exact (hs.matched st.head (by simp [Stretch.toList])).first (hg st.head (by simp [Stretch.toList]))

lemma quiet_of_gap {ms : List Mark} (hg : ∀ m ∈ ms, m.isGap = true)
    (he : ¬ ∃ m ∈ ms, m.ends true = true) : Quiet true ms := by
  intro m hm
  have hends : ¬ m.ends true = true := fun h => he ⟨m, hm, h⟩
  have hgap := hg m hm
  cases m with
  | lexeme start l => cases l <;> simp_all [Mark.isGap, Mark.ends]
  | _ => simp_all [Mark.ends, Mark.isQuiet]

lemma labels_of_scanned {t colon : Token} {name : String} {a b : Nat}
    (hs : Scanned s.source.chars a (.leaf t :: .leaf colon :: gs) b) (hl : t.lexeme = .ident name)
    (hc : colon.lexeme = .op .colon) :
    Labels s.source.chars (fun _ => []) (Placed.ident t name).node t.start colon.stop := by
  have hch : Chain s.source.chars (t :: [] ++ colon :: tokens gs) := by simpa using hs.chain
  have hauto : t.isAutomatic = false := by simp [Token.isAutomatic, hl]
  have hauto' : colon.isAutomatic = false := by simp [Token.isAutomatic, hc]
  obtain ⟨ms, hr, hg, he⟩ := hch.gap (by simp [Token.isSemicolon, hl]) (by simp)
    (by simp [Token.isSemicolon, hc])
  have hq : Quiet true ms := quiet_of_gap hg (by simpa [hl, Lexeme.endsLine] using he)
  have hop := hch.hop (t := t) (by simp) hauto
  have hop' := hch.hop (t := colon) (by simp) hauto'
  have hstop : colon.stop = colon.start + 1 := by
    rw [hop'.stop_eq, hc]
    rfl
  have hnode : (Placed.ident t name).node = .mk (some (.ofToken t)) {}
      (some [.text (String.ofList (cut s.source.chars t.start t.stop))]) (.ident name) := by
    rw [hch.text (by simp) hauto, Token.text, hl, Lexeme.text]
    rfl
  rw [hstop, hc] at hop'
  rw [hstop, hnode]
  exact .mk (by rintro ⟨⟩) (hch.mem (by simp)).1 (.single hop) (by simp [hl, Lexeme.isSemicolon]) hr hq hop'
    (fun _ _ _ => rfl)

lemma takes_labeled {t colon : Token} {label inside : Placed} {rest : List TokenGroup} {a b : Nat}
    (hs : Scanned s.source.chars a (.leaf t :: .leaf colon :: gs) b)
    (hlabels : Labels s.source.chars (fun _ => []) label.node t.start colon.stop)
    (hident : Woven s.source.chars label.node) (hk : label.shape.kind = .ident)
    (hfirst : t.isSemicolon = false) (hcolon : colon.isSemicolon = false) (hst : gs = st.toList ++ rest)
    (hin : Stands s.source.chars inside st) (hc : inside.shape.kind ≠ .caseClause) :
    TakesStmt s.source.chars (.leaf t :: .leaf colon :: gs)
      { span := (Span.ofTokens t colon).through inside.span,
        shape := .labeled label.node (some inside.node) } rest := by
  subst hst
  have hlast := Stretch.last_append (.leaf t) [.leaf colon] st
  obtain ⟨fs, hfs⟩ := st.tokens_eq_first
  have hch : Chain s.source.chars (colon :: [] ++ st.first :: (fs ++ tokens rest)) := by
    have := hs.chain
    rw [tokens_cons, tokens_cons, tokens_append, hfs] at this
    exact this.right
  obtain ⟨ms, hr, hg, _⟩ := hch.gap hcolon (by simp) hin.first
  have hstart : inside.span.start = st.first.start := by rw [hin.span_eq]; rfl
  have hstop : inside.span.stop = st.last.stop := by rw [hin.span_eq]; rfl
  have hlt : t.start < t.stop :=
    (hs.chain.hop (t := t) (by simp) (Token.isAutomatic_of_isSemicolon hfirst)).lt
  have haround := hs.behind.tail.left.trim
  have hle := haround.1.le
  refine ⟨⟨.leaf t, [.leaf colon] ++ st.toList⟩, by simp [Stretch.toList],
    ⟨?_, sound_default, rfl, fun layout hl _ => ?_, .bare ⟨hk, ?_⟩ rfl ?_, rfl, (by rintro ⟨⟩), hfirst,
      ?_, fun _ => ⟨fun _ => ?_, ?_⟩⟩, rfl, (by rintro ⟨⟩)⟩
  · rw [Stretch.span_append, hin.span_eq]
    rfl
  · rw [hlast]
    exact .labeled hl hlabels hr hg (hin.lies _ hin.layout fun h => absurd h hc)
      (isPlain_or_labeled hin.isStmt hin.ne_comment hc)
  · rintro n ⟨⟩
    exact hin.isStmt
  · exact List.forall_mem_cons.2 ⟨hident, List.forall_mem_singleton.2 hin.woven⟩
  · rw [hlast]
    exact hin.last
  · change t.start < inside.span.stop
    exact hlt.trans_le (hstop ▸ haround.2.1.trans hle)
  · rw [Placed.inner, Shape.children, Option.toList_some, List.flatMap_cons, List.flatMap_singleton,
      starts_of_ident hk, List.nil_append]
    exact (hin.ordered hc).starts.mono (hlt.trans_le (hstart ▸ haround.2.1)) (Nat.le_refl _)

lemma labeled_spec (ih : Specs s (8 * size gs + 5)) : LabeledSpec s gs := by
  intro closer t colon name step a b hs hl hc h
  have hlabels := labels_of_scanned hs hl hc
  have hident := reads_ident hs.head hl
  have hfirst : t.isSemicolon = false := by simp [Token.isSemicolon, hl]
  have hcolon : colon.isSemicolon = false := by simp [Token.isSemicolon, hc]
  have hall : Scanned s.source.chars a ([.leaf t, .leaf colon] ++ gs) b := hs
  have hpair : Scanned s.source.chars a (⟨.leaf t, [.leaf colon]⟩ : Stretch).toList b := hall.left
  -- a label without a statement
  have hbare : Stands s.source.chars
      { span := .ofTokens t colon, shape := .labeled (Placed.ident t name).node none }
      ⟨.leaf t, [.leaf colon]⟩ := by
    refine ⟨rfl, sound_default, rfl, fun layout hl _ => .label hl hlabels,
      .bare ⟨rfl, by simp⟩ rfl ?_, rfl, (by rintro ⟨⟩), hfirst, hcolon,
      fun _ => ⟨fun _ => start_lt_stop hpair hfirst, ?_⟩⟩
    · exact List.forall_mem_singleton.2 hident.woven
    · rw [Placed.inner, Shape.children, Option.toList_none, List.flatMap_singleton, starts_of_ident rfl]
      exact .nil _ _
  rw [labeled.eq_def] at h
  dsimp only at h
  split at h
  · obtain rfl := Except.pure_eq_ok_iff.1 h
    exact ⟨_, rfl, hbare, rfl, (by rintro ⟨⟩)⟩
  · next g rest =>
    split at h
    · obtain rfl := Except.pure_eq_ok_iff.1 h
      exact ⟨_, rfl, hbare, rfl, (by rintro ⟨⟩)⟩
    · next hg =>
      obtain ⟨step', hstep, h⟩ := Except.bind_eq_ok_iff.1 h
      obtain rfl := Except.pure_eq_ok_iff.1 h
      obtain ⟨st, hst, hstands, hlay, hk⟩ := ih.stmt (by simp) hs.tail.tail (by simpa using hg) hstep
      have hin := stands_indented hstands hlay
      exact takes_labeled hs hlabels hident.woven rfl hfirst hcolon hst hin hk

lemma stmt_spec (ih : Specs s (8 * st.size + 4)) : StmtSpec s st := by
  intro closer step a b hs hh h
  obtain ⟨g, gs⟩ := st
  have hhead : ∀ g' ∈ (g :: gs).head?, g'.isSemicolon = false := by simpa using hh
  have hsimple : SimpleSpec s ⟨g, gs⟩ := ih.simple (by omega)
  have hraw : RawStmtSpec s ⟨g, gs⟩ := ih.rawStmt (by omega)
  rw [stmt] at h
  cases g with
  | pair k o inner c =>
    cases k with
    | curly =>
      obtain ⟨p, hp, h⟩ := Except.bind_eq_ok_iff.1 h
      obtain rfl := Except.pure_eq_ok_iff.1 h
      have hblock : BlockSpec s inner := ih.block (by simp; omega)
      obtain ⟨hread, hk⟩ := hblock hs.head hp
      have hbare : isBare p.shape.kind := hk ▸ ⟨rfl, rfl⟩
      exact TakesBare.stmt ⟨_, rfl, hread, hbare, last_pair hs⟩ hs hhead
    | _ => exact (hsimple hs hh h).stmt hs hhead
  | leaf t =>
    dsimp only at h
    split at h
    · next name hl =>
      -- what is no label is simple
      have hother {r : Step gs} (h : simple s ⟨.leaf t, gs⟩ = .ok r) :
          TakesStmt s.source.chars (.leaf t :: gs) r.node r.rest := (hsimple hs hh h).stmt hs hhead
      rcases gs with _ | ⟨colon | ⟨k, o, inner, c⟩, rest⟩
      · obtain ⟨r, hr, h⟩ := Except.bind_eq_ok_iff.1 h
        obtain rfl := Except.pure_eq_ok_iff.1 h
        exact hother hr
      · dsimp only at h
        split at h
        · next hc =>
          obtain ⟨r, hr, h⟩ := Except.bind_eq_ok_iff.1 h
          obtain rfl := Except.pure_eq_ok_iff.1 h
          exact ih.labeled (by simp; omega) hs hl (by simpa [Token.isOp] using hc) hr
        · obtain ⟨r, hr, h⟩ := Except.bind_eq_ok_iff.1 h
          obtain rfl := Except.pure_eq_ok_iff.1 h
          exact hother hr
      · obtain ⟨r, hr, h⟩ := Except.bind_eq_ok_iff.1 h
        obtain rfl := Except.pure_eq_ok_iff.1 h
        exact hother hr
    · next => exact ((ih.ifStmt (by simp; omega) hs hh h).1).stmt hs hhead
    · next hl => exact (ih.forStmt (by simp) hs hl h).stmt hs hhead
    · next => exact (ih.bodyStmt (by simp; omega) hs hh h).stmt hs hhead
    · next => exact (ih.bodyStmt (by simp; omega) hs hh h).stmt hs hhead
    · next =>
      split at h
      · exact (hraw hs hh h).stmt hs hhead
      · exact (ih.varStmt (by simp) hs hh h).stmt hs hhead
    · next => exact (hsimple hs hh h).stmt hs hhead
    · next => exact (hraw hs hh h).stmt hs hhead
    · next => exact (hsimple hs hh h).stmt hs hhead

end Parser

end ParallelTests
