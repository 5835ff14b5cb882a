import ParallelTests.Proofs.Parse.Clause
import ParallelTests.Proofs.Print.Block
import ParallelTests.Proofs.Print.Stmt
import ParallelTests.Proofs.Recast.Lines

namespace ParallelTests

open Scan Attach Printer

variable {src : List Char} {lost : Nat → Prop} {p q : Pace} {a b m : Nat} {ms : List Mark} {l : Lexeme}
  {cs leads : List Comment} {slots : List Slot} {qs : List Placed}

namespace Pace

namespace Ready

lemma tracks (h : p.Ready src a) : p.Tracks src a := by
  cases h with
  | even h => exact h.tracks
  | lexeme ht => exact ht

lemma fits (h : p.Ready src a) (hop : Hop src a [.lexeme a l] m) : p.Fits l (cut src a m) := by
  cases h with
  | even h => exact h.fits hop
  | lexeme _ hop' _ hf =>
    obtain ⟨he, rfl⟩ := hop.unique hop'
    obtain rfl : l = _ := by simpa using he
    exact hf

variable (lost) in
lemma read (h : p.Ready src a) (hop : Hop src a [.lexeme a l] m) (hl : l.isSemicolon = false) :
    Recast src lost p a (cut src a m) (p.read l) m ∧ (p.read l).Even src m := by
  have hr : Recast src lost p a _ _ m := .single_lexeme hop (h.fits hop)
  exact ⟨hr, hr.tracks h.tracks, by simp [Pace.read, Gap.lexeme, hl], False.elim⟩

end Ready

end Pace

lemma Scan.Hop.cut_eq {start : Nat} (h : Hop src a [.lexeme start l] m) :
    cut src a m = l.text.toList := by
  obtain ⟨c, x, cs, _, hc, hf, hs⟩ := h.lexeme_inv
  rw [text_of_first hf, hs, cut_of_cons hc (Nat.le_refl _), cut_self, List.append_nil,
    String.toList_ofList]

lemma Scan.Hop.lines_lexeme (h : Hop src a [.lexeme a l] m) (hb : m ≤ b) (old new : List Char) :
    Rebase.lines old new none (cut src a b) = cut src a m ++ Rebase.lines old new none (cut src m b) := by
  obtain ⟨c, x, hcut, hd, hf, hlen⟩ := h.lexeme_cut
  rw [← cut_append h.lt.le hb, hcut, List.cons_append]
  refine Rebase.lines_lexeme (l := l) ?_
  rw [drop_eq_cut_append hb] at hf
  simpa using first_of_stops stops_nil hf

variable (lost) in
lemma Recast.ready {old new : List Char} (hold : ∀ c ∈ old, isBlank c = true)
    (hnew : ∀ c ∈ new, isBlank c = true) (hp : p.Ready src a) (h : Reach src a ms b) :
    ∃ q, Recast src lost p a (Rebase.lines old new none (cut src a b)) q b ∧ q.Ready src b ∧
      (a < b ∨ p.Even src a → q.Even src b) := by
  cases hp with
  | even he =>
    obtain ⟨q, hq, heq⟩ := Recast.verbatim lost hold hnew he h
    exact ⟨q, hq, .even heq, fun _ => heq⟩
  | @lexeme l m ht hop hl hf =>
    rcases Nat.lt_or_eq_of_le h.le with hlt | rfl
    · obtain ⟨rest, -, hrest⟩ := h.past hop hlt
      obtain ⟨hw, heven⟩ := (Pace.Ready.lexeme ht hop hl hf).read lost hop hl
      obtain ⟨q, hq, heq⟩ := Recast.verbatim lost hold hnew heven hrest
      rw [hop.lines_lexeme hrest.le]
      exact ⟨q, hw.trans hq, .even heq, fun _ => heq⟩
    · rw [cut_self, Rebase.lines]
      exact ⟨p, .refl, .lexeme ht hop hl hf, fun h => h.resolve_left (Nat.lt_irrefl _)⟩

def Copies (src : List Char) (lost : Nat → Prop) (a b : Nat)
    (print : Option Rebase → Page → Printer.Result Page) : Prop :=
  ∀ rebase page page' p, Indents rebase → Pace.Ready src p a → print rebase page = .ok page' →
    ∃ w q, Wrote page page' w ∧ Recast src lost p a w q b ∧ q.Ready src b ∧
      (a < b ∨ p.Even src a → q.Even src b)

def Casts (src : List Char) (lost : Nat → Prop) (n : Node) (a b : Nat) : Prop :=
  Copies src lost a b fun rebase page => emit rebase page n

namespace Copies

variable {print print' : Option Rebase → Page → Printer.Result Page}

lemma nothing : Copies src lost a a fun _ page => .ok page := by
  intro rebase page page' p _ hp h
  obtain rfl := Except.ok.inj h
  exact ⟨[], p, wrote_refl, .refl, hp, fun h => h.resolve_left (Nat.lt_irrefl _)⟩

lemma bind (h : Copies src lost a m print) (h' : Copies src lost m b print') :
    Copies src lost a b fun rebase page => print rebase page >>= print' rebase := by
  intro rebase page page' p hi hp he
  obtain ⟨page₁, h₁, h₂⟩ := Except.bind_eq_ok_iff.1 he
  obtain ⟨w, q, hw, hq, hr, he⟩ := h rebase page page₁ p hi hp h₁
  obtain ⟨w', q', hw', hq', hr', he'⟩ := h' rebase page₁ page' q hi hr h₂
  refine ⟨w ++ w', q', hw.trans hw', hq.trans hq', hr', fun hab => he' ?_⟩
  by_cases hm : m < b
  · exact .inl hm
  · exact .inr (he (hab.imp_left fun hab => by omega))

lemma verbatim (hr : Reach src a ms b) : Copies src lost a b fun rebase page =>
    .ok (Printer.verbatim rebase page (String.ofList (cut src a b))) := by
  intro rebase page page' p hi hp he
  obtain rfl := Except.ok.inj he
  obtain ⟨old, new, ho, hn, hw⟩ := wrote_verbatim hi
  obtain ⟨q, hq, hqr, hqe⟩ := Recast.ready lost ho hn hp hr
  have hv := hw page (String.ofList (cut src a b))
  rw [String.toList_ofList] at hv
  exact ⟨_, q, hv, hq, hqr, hqe⟩

end Copies

lemma copies_pieces {children : List Node} {ps : List Piece} (h : Lies src (.pieces children ps) a b)
    (hc : ∀ c ∈ children, ∀ a b, Lies src (.node c) a b → Casts src lost c a b) :
    Copies src lost a b fun rebase page => ps.foldlM (emitPiece rebase children) page := by
  generalize hpart : Part.pieces children ps = part at h
  induction h generalizing ps with
  | done ha =>
    cases hpart
    exact .nothing
  | @text _ ps a m b ms hsync hr he h ih =>
    cases hpart
    exact (Copies.verbatim hr).bind (ih rfl)
  | @child _ ps i n a m b hi hn h _ ih =>
    cases hpart
    simp only [List.foldlM_cons, emitPiece, hi]
    exact (hc n (List.mem_of_getElem? hi) a m hn).bind (ih rfl)
  | _ => cases hpart

lemma casts_woven {n : Node} (h : Lies src (.node n) a b) (hk : n.kind ≠ .block)
    (hc : ∀ c ∈ n.children, ∀ a b, Lies src (.node c) a b → Casts src lost c a b) :
    Casts src lost n a b := by
  generalize hpart : Part.node n = part at h
  cases h with
  | woven hk' h =>
    cases hpart
    intro rebase page page' p hi hp he
    exact copies_pieces h hc rebase page page' p hi hp ((emit_woven hk').symm.trans he)
  | block =>
    cases hpart
    exact absurd rfl hk
  | _ => cases hpart

/-! ### Blocks -/

structure Pace.Closes (p : Pace) : Prop where
  line : ¬p.line
  ended : p.isPending = true → p.source.broken = true → p.copy.broken = true

lemma Pace.Closes.fits (h : p.Closes) : p.Fits .closeCurly ['}'] :=
  ⟨h.line, fun _ => .inr (stops_cons rfl), fun _ h => (by cases h), fun _ h => absurd rfl h, h.ended⟩

inductive Single (src : List Char) (lost : Nat → Prop) (a : Nat) : List Placed → Nat → Prop
  | nil {b : Nat} (h : Reach src a [] b) : Single src lost a [] b
  | stmt {q : Placed} {b : Nat} (h : Vacant src a q.span.start) (ho : OpensLine src q.span.start)
      (hlt : q.span.start < q.span.stop) (hq : Casts src lost q.node q.span.start q.span.stop)
      (hr : Reach src q.span.stop [] b) : Single src lost a [q] b

variable {rebase : Option Rebase} {page page' : Page}

lemma Pace.fits_of_not_pending (hl : ¬p.line) (hp : p.isPending = false) (ha : p.copy.apart = true)
    (l : Lexeme) (text : List Char) : p.Fits l text :=
  have absurd_pending {P : Prop} (h : p.isPending = true) : P := by simp [hp] at h
  ⟨hl, fun _ => .inl ha, fun h => absurd_pending (isPending_of_isName h), fun h => absurd_pending h,
    fun h => absurd_pending h⟩

lemma Single.copies (h : Single src lost a qs b) (hb : Hop src b [.lexeme b .closeCurly] m)
    (hp : p.Tracks src a) (hl : ¬p.line) (hlast : p.isPending = false) (hi : Indents rebase)
    (he : emitAll rebase "; " page (qs.map Placed.node) = .ok page') :
    ∃ w q, Wrote page page' w ∧ Recast src lost p a (' ' :: (w ++ [' '])) q b ∧ q.Closes := by
  cases h with
  | nil hr =>
    rw [List.map_nil, emitAll] at he
    obtain rfl := Except.pure_eq_ok_iff.1 he
    exact ⟨[], _, wrote_refl, .blank rfl hl (.blank rfl hl (.spaces hr)), hl,
      fun h => absurd h (ne_true_of_eq_false hlast)⟩
  | @stmt st _ hv ho hlt hq hr =>
    rw [List.map_singleton, emitAll] at he
    obtain ⟨l, m, hop, hls⟩ := ho.hop
    obtain ⟨ms, hvac, hms⟩ := hv
    obtain ⟨g, hg, -⟩ := Recast.vacant lost (p := { p with copy := p.copy.space }) hvac hms
    have hopen := Recast.blank (c := ' ') rfl hl hg
    obtain ⟨w, q, hw, hqw, -, heven⟩ := hq rebase page page' _ hi
      (.lexeme (hopen.tracks hp) hop hls
        (Pace.fits_of_not_pending (p := ⟨p.last, g, p.copy.space, p.line⟩) hl hlast rfl _ _)) he
    have hclose := heven (.inl hlt)
    have hline : ¬q.line := hclose.not_line hr hb (by simp)
    have hbehind : Recast src lost q st.span.stop [' ']
        { q with source := _, copy := q.copy.space } b :=
      .blank rfl hline (.spaces (p := { q with copy := q.copy.space }) hr)
    refine ⟨w, _, hw, hopen.trans (hqw.trans hbehind), hline, fun _ hs => ?_⟩
    change q.copy.broken = true
    rw [← hclose.same]
    split at hs <;> exact hs

lemma casts_braces {n : Node} (ho : Hop src a [.lexeme a .openCurly] (a + 1))
    (hc : Hop src b [.lexeme b .closeCurly] (b + 1))
    (h : ∀ rebase page page' p, Indents rebase → Pace.Even src p (a + 1) → ¬p.line →
      p.isPending = false → emit rebase page n = .ok page' → ∃ w q, Wrote page page' ('{' :: (w ++ ['}'])) ∧
        Recast src lost p (a + 1) w q b ∧ q.Closes) : Casts src lost n a (b + 1) := by
  intro rebase page page' p hi hp he
  obtain ⟨hopen, heven⟩ := hp.read lost ho rfl
  obtain ⟨w, q, hw, hq, hcloses⟩ := h rebase page page' _ hi heven id rfl he
  have hready : q.Ready src b := .lexeme (hq.tracks heven.tracks) hc rfl (hc.cut_eq ▸ hcloses.fits)
  obtain ⟨hclose, heven'⟩ := hready.read lost hc rfl
  rw [ho.cut_eq] at hopen
  rw [hc.cut_eq] at hclose
  exact ⟨_, _, hw, hopen.trans (hq.trans hclose), .even heven', fun _ => heven'⟩

lemma casts_block {span : Option Span} {layout : Layout} {pieces : Option (List Piece)}
    {oneLine : Bool} {e : Nat} (ho : Hop src a [.lexeme a .openCurly] (a + 1))
    (hc : Hop src b [.lexeme b .closeCurly] (b + 1)) (ht : Trail src (a + 1) leads m)
    (hr : Ranks src lost m slots e) (hf : List.Forall₂ Slot.Fills slots qs) (hv : Vacant src e b)
    (hone : oneLine = true → leads = [] → (qs.map Placed.node).any needsLine = false →
      Single src lost (a + 1) qs b) :
    Casts src lost (.mk span layout pieces (.block (qs.map Placed.node) oneLine (texts none leads)))
      a (b + 1) := by
  refine casts_braces ho hc fun rebase page page' p hi hp hl hlast he => ?_
  -- lines behind the opening brace
  have hlines {page₁ page₂ : Page} (hpage : Wrote page page₁ ('{' :: (beside leads ++ ['\n'])))
      (hemit : emitLines rebase page.indent true page₁ (qs.map Placed.node) = .ok page₂)
      (hend : Wrote page₂ page' (page.indent.toList ++ ['}'])) :
      ∃ w q, Wrote page page' ('{' :: (w ++ ['}'])) ∧ Recast src lost p (a + 1) w q b ∧ q.Closes := by
    obtain ⟨q, hq, hqe⟩ := Recast.trail lost ht hp
    obtain ⟨w, v, r, hw, hwv, hr, hre⟩ := Recast.lines hr hf hqe hi
      (fun _ => isBlank_of_mem_indent) hemit
    obtain ⟨ms, hvac, hms⟩ := hv
    obtain ⟨g, hg, -⟩ := Recast.vacant lost (p := r) hvac hms
    have hbehind := @Recast.newline_blanks src lost page.indent.toList
      (fun _ => isBlank_of_mem_indent) { r with source := g } b
    refine ⟨beside leads ++ v ++ '\n' :: page.indent.toList, _, ?_,
      (hq.trans hr).trans (List.nil_append _ ▸ hg.trans hbehind), id, fun _ _ => rfl⟩
    have htext : '\n' :: (w ++ (page.indent.toList ++ ['}'])) =
        v ++ '\n' :: (page.indent.toList ++ ['}']) := by
      rw [← List.cons_append, hwv]
      simp
    simpa [htext] using (hpage.trans hw).trans hend
  have hleads (h : texts none leads = none) : leads = [] := by
    cases leads with
    | nil => rfl
    | cons c cs =>
      obtain ⟨text, htext, -⟩ := toList_texts c.text cs
      cases htext.symm.trans h
  rcases emit_block_cases he with ⟨hstmts, hlead, rfl⟩ | ⟨rfl, hlead, hneeds, page₁, hrow, rfl⟩ |
    ⟨page₁, hemit, rfl⟩
  · obtain rfl := List.map_eq_nil_iff.1 hstmts
    obtain rfl := hleads hlead
    cases oneLine with
    | true =>
      cases hone rfl rfl rfl with
      | nil hr =>
        exact ⟨[], _, wrote_write page "\x7b\x7d", .spaces hr, hl,
          fun h => absurd h (ne_true_of_eq_false hlast)⟩
    | false =>
      refine @hlines _ (page.write "\x7b\n") (wrote_write page "\x7b\n") ?_ ?_
      · rw [List.map_nil, emitLines]
        rfl
      · simp [Wrote]
  · obtain rfl := hleads hlead
    obtain ⟨w, q, hw, hq, hcl⟩ := (hone rfl rfl hneeds).copies hc hp.tracks hl hlast hi hrow
    refine ⟨_, q, ?_, hq, hcl⟩
    simpa using ((wrote_write page "\x7b ").trans hw).trans (wrote_write page₁ " \x7d")
  · refine hlines ?_ hemit (by simpa using wrote_write page₁ (page.indent ++ "\x7d"))
    have := wrote_write page ("\x7b" ++ ((texts none leads).map (" " ++ ·)).getD "" ++ "\n")
    rw [beside_eq] at this ⊢
    simpa using this

/-! ### Lines -/

lemma Recast.line_end {y e : Nat} {bs w : List Char} {n : Node} (hw : Wrote page page' (bs ++ w))
    (hbs : ∀ c ∈ bs, isBlank c = true) (hr : Recast src lost p y w q m) (hq : q.Even src m)
    (ht : Trail src m cs e) (htr : n.layout.trailing = texts none cs) :
    ∃ bs w q, Wrote page ((trailing page' n).write "\n") (bs ++ (w ++ ['\n'])) ∧
      (∀ c ∈ bs, isBlank c = true) ∧ Recast src lost p y w q e ∧ q.Even src e := by
  obtain ⟨r, hr', hre⟩ := Recast.trail lost ht hq
  refine ⟨bs, w ++ beside cs, r, ?_, hbs, hr.trans hr', hre⟩
  simpa using hw.trans ((wrote_texts page' htr).trans (wrote_write _ "\n"))

lemma castsLine_plain {n : Node} {y e : Nat} (hc : n.kind ≠ .caseClause) (hk : n.kind ≠ .labeled)
    (hl : ∀ text ∈ n.layout.indent, ∀ c ∈ text.toList, isBlank c = true) (ho : OpensLine src y)
    (hn : Casts src lost n y m) (hlt : y < m) (ht : Trail src m cs e)
    (htr : n.layout.trailing = texts none cs) : CastsLine src lost n y e := by
  intro rebase base page page' p hi hb hp h
  have hmoved : Indents (moved n (base ++ "\t")) :=
    indents_moved (n := .mk none { indent := n.layout.indent } none n.shape) hb.deeper
      ⟨by simp [Node.layout], hl⟩
  rw [emitLine_eq hc hk] at h
  obtain ⟨page₁, he, h⟩ := Except.bind_eq_ok_iff.1 h
  obtain rfl := Except.pure_eq_ok_iff.1 h
  obtain ⟨w, q, hw, hq, -, heven⟩ := hn _ _ _ p hmoved (hp.ready ho) he
  exact Recast.line_end ((wrote_write page (base ++ "\t")).trans hw) hb.deeper hq (heven (.inl hlt)) ht htr

variable (lost) in
lemma Recast.drop (h : Reach src a ms b) (hq : ∀ m ∈ ms, m.isQuiet = true)
    (hl : ∀ x, a ≤ x → x < b → lost x)
    (hp : p.isPending = true → p.source.broken = false ∧ p.copy.broken = false ∧
      ∀ m ∈ ms, m.breaks = false) :
    ∃ g, Recast src lost p a [] { p with source := g } b ∧ (p.isPending = true → g.broken = false) := by
  induction h generalizing p with
  | refl => exact ⟨p.source, .refl, fun h => (hp h).1⟩
  | @step a m b ms ns hop h ih =>
    obtain ⟨hms, hns⟩ := List.forall_mem_append.1 hq
    have hlt := hop.lt
    have hle := h.le
    have hrest (p' : Pace) (hp' : p'.isPending = true → p'.source.broken = false ∧
        p'.copy.broken = false) (hpp : p'.isPending = p.isPending) :=
      ih (p := p') hns (fun x hx hx' => hl x (by omega) hx') fun h =>
        ⟨(hp' h).1, (hp' h).2, fun k hk => (hp (hpp ▸ h)).2.2 k (by simp [hk])⟩
    rcases hop.marks_cases with rfl | ⟨mark, rfl⟩
    · obtain ⟨g, hg, he⟩ := hrest { p with source := p.source.space }
        (fun h => ⟨(hp h).1, (hp h).2.1⟩) rfl
      exact ⟨g, .skip hop hg, he⟩
    · cases mark with
      | lexeme => simp [Mark.isQuiet] at hms
      | newline =>
        obtain ⟨g, hg, he⟩ := hrest { p with source := .newline }
          (fun h => absurd ((hp h).2.2 .newline (by simp)) (by simp [Mark.breaks])) rfl
        exact ⟨g, .skipLine hop hg, he⟩
      | remark text =>
        have hquiet (h : p.isPending = true) : '\n' ∉ text := by
          simpa [Mark.breaks] using (hp h).2.2 (.remark text) (by simp)
        obtain ⟨g, hg, he⟩ := hrest { p with source := (p.source.remark text).space }
          (fun h => ⟨by simpa [Gap.remark, Gap.space, (hp h).1] using hquiet h, (hp h).2.1⟩) rfl
        exact ⟨g, .lose hop (hl a (Nat.le_refl a) (by omega))
          (fun h => ⟨(hp h).1, (hp h).2.1, hquiet h⟩) hg, he⟩

def Labelled (src : List Char) (name : String) (y m : Nat) : Prop :=
  ∃ d c ms, Hop src y [.lexeme y (.ident name)] d ∧ Reach src d ms c ∧ Quiet true ms ∧
    Hop src c [.lexeme c .colon] m

lemma Labelled.lt {name : String} {y : Nat} (h : Labelled src name y m) : y < m := by
  obtain ⟨d, c, ms, hop, hr, -, hc⟩ := h
  exact hop.lt.trans_le (hr.le.trans hc.lt.le)

lemma Labelled.copies {label : Node} {name : String} {y : Nat} (h : Labelled src name y m)
    (hl : ∀ x, y ≤ x → x < m → lost x) (hp : p.Begins src y) (ho : OpensLine src y) (hi : Indents rebase)
    (hlabel : ∃ span layout, label = .mk span layout (some [.text name]) (.ident name))
    (he : emit rebase page label = .ok page') :
    ∃ w q, Wrote page (page'.write ":") w ∧ Recast src lost p y w q m ∧ q.Even src m ∧
      q.last = some .colon := by
  obtain ⟨d, c, ms, hop, hr, hq, hc⟩ := h
  obtain ⟨span, layout, rfl⟩ := hlabel
  have hpage : page' = verbatim rebase page name := by
    rw [emit_woven (by rintro ⟨⟩)] at he
    exact (Except.ok.inj he).symm
  obtain ⟨old, new, -, -, hw⟩ := wrote_verbatim hi
  have htext := hop.lines_lexeme (Nat.le_refl d) old new
  rw [cut_self, Rebase.lines, List.append_nil, hop.cut_eq] at htext
  obtain ⟨hword, heven⟩ := (hp.ready ho).read lost hop rfl
  have := hop.lt
  have := hc.lt
  obtain ⟨g, hg, hge⟩ := Recast.drop lost (p := p.read (.ident name)) hr
    (fun k hk => (hq k hk).1) (fun x hx hx' => hl x (by omega) (by omega))
    fun _ => ⟨rfl, rfl, fun k hk => (hq k hk).2 rfl⟩
  have hfits : Pace.Fits { p.read (.ident name) with source := g } .colon [':'] :=
    ⟨id, fun _ => .inr (stops_cons rfl), fun _ h => (by cases h), fun hpend _ => by
      rw [hge hpend]
      rfl, fun hpend h => by simp [hge hpend] at h⟩
  have hready : Pace.Ready src { p.read (.ident name) with source := g } c :=
    .lexeme (hg.tracks heven.tracks) hc rfl (hc.cut_eq ▸ hfits)
  obtain ⟨hcolon, heven'⟩ := hready.read lost hc rfl
  rw [hop.cut_eq] at hword
  rw [hc.cut_eq] at hcolon
  refine ⟨_, _, ?_, hword.trans (List.nil_append _ ▸ hg.trans hcolon), heven', rfl⟩
  rw [hpage]
  have hname := hw page name
  rw [show name.toList = (Lexeme.ident name).text.toList from rfl, htext] at hname
  exact hname.trans (wrote_write _ ":")

lemma castsLine_label {span : Option Span} {layout : Layout} {label : Node} {name : String} {y e : Nat}
    (h : Labelled src name y m) (hl : ∀ x, y ≤ x → x < m → lost x) (ho : OpensLine src y)
    (hlabel : ∃ span layout, label = .mk span layout (some [.text name]) (.ident name))
    (ht : Trail src m cs e) (htr : layout.trailing = texts none cs) :
    CastsLine src lost (.mk span layout none (.labeled label none)) y e := by
  intro rebase base page page' p hi hb hp he
  rw [emitLine] at he
  obtain ⟨page₁, hpage, he⟩ := Except.bind_eq_ok_iff.1 he
  obtain rfl := Except.pure_eq_ok_iff.1 he
  obtain ⟨w, q, hw, hq, heven, -⟩ := h.copies hl hp ho hi hlabel hpage
  exact Recast.line_end ((wrote_write page base).trans hw) hb hq heven ht htr

lemma castsLine_labeled {span : Option Span} {layout : Layout} {label inside : Node} {name : String}
    {y i e : Nat} (h : Labelled src name y m) (hr : Reach src m ms i) (hq : ∀ k ∈ ms, k.isQuiet = true)
    (hl : ∀ x, y ≤ x → x < i → lost x) (ho : OpensLine src y) (hoi : OpensLine src i)
    (hlabel : ∃ span layout, label = .mk span layout (some [.text name]) (.ident name))
    (hsound : inside.layout.Sound) (hnone : inside.layout.trailing = none)
    (hn : inside.kind ≠ .labeled → Casts src lost inside i b) (hpieces : inside.kind = .labeled → inside.pieces = none)
    (hlt : i < b) (ht : Trail src b cs e) (htr : layout.trailing = texts none cs) :
    CastsLine src lost (.mk span layout none (.labeled label (some inside))) y e := by
  intro rebase base page page' p hi hb hp he
  rw [emitLine] at he
  obtain ⟨page₁, hpage, he⟩ := Except.bind_eq_ok_iff.1 he
  obtain ⟨page₂, hin, he⟩ := Except.bind_eq_ok_iff.1 he
  obtain rfl := Except.pure_eq_ok_iff.1 he
  have hk : inside.kind ≠ .labeled := fun hk => not_labeled_of_emit (hpieces hk) hin hk
  obtain ⟨w, q, hw, hq', heven, hlast⟩ := h.copies (fun x hx hx' => hl x hx (by have := hr.le; omega)) hp
    ho hi hlabel hpage
  have hpending : q.isPending = false := by rw [Pace.isPending, hlast]; rfl
  obtain ⟨g, hg, -⟩ := Recast.drop lost (p := q) hr hq
    (fun x hx hx' => hl x (by have := h.lt; omega) hx') fun h => by simp [hpending] at h
  have hline := @Recast.newline_blanks src lost (base ++ "\t").toList hb.deeper
    { q with source := g } i
  have hskip := List.nil_append _ ▸ hg.trans hline
  obtain ⟨l, d, hop, hls⟩ := hoi.hop
  obtain ⟨w', r, hw', hr', -, heven'⟩ := hn hk _ _ _ ⟨q.last, g, .newline, False⟩
    (indents_moved hb.deeper hsound) (.lexeme (hskip.tracks heven.tracks) hop hls
      (Pace.fits_of_not_pending (p := ⟨q.last, g, .newline, False⟩) id hpending rfl _ _)) hin
  simp only [hnone, Option.isSome_none, Bool.false_eq_true, if_false]
  refine Recast.line_end ?_ hb (hq'.trans (hskip.trans hr')) (heven' (.inl hlt)) ht htr
  simpa using ((wrote_write page base).trans hw).trans
    ((wrote_write _ ("\n" ++ (base ++ "\t"))).trans hw')

lemma wrote_lead {children : List Node} {ps : List Piece} (hi : Indents rebase)
    (hnote : ∀ text ∈ texts none leads, IsNote text)
    (ht : ps = ((texts none leads).map fun text => Piece.text (" " ++ text)).toList)
    (h : ps.foldlM (emitPiece rebase children) page = .ok page') : Wrote page page' (beside leads) := by
  have hbeside := congrArg String.toList (beside_eq leads)
  rw [String.toList_ofList] at hbeside
  cases htexts : texts none leads with
  | none =>
    rw [htexts] at ht hbeside
    subst ht
    obtain rfl := Except.pure_eq_ok_iff.1 h
    rw [← hbeside]
    exact wrote_refl
  | some text =>
    obtain ⟨closed, hn⟩ := hnote text htexts
    rw [htexts] at ht hbeside
    subst ht
    obtain ⟨old, new, _, _, hw⟩ := wrote_verbatim hi
    obtain rfl : verbatim rebase page (" " ++ text) = page' := Except.ok.inj h
    have hl := hn.lines old new [] (.inr endsLine_nil)
    have hw' := hw page (" " ++ text)
    rw [← hbeside]
    rw [String.toList_append, show " ".toList = [' '] from rfl, List.singleton_append,
      Rebase.lines_cons (by decide) (by decide) (by simp), ← List.append_nil text.toList, hl] at hw'
    simpa [Rebase.lines] using hw'

lemma castsLine_clause {span : Option Span} {layout : Layout} {header : Placed} {ps : List Piece}
    {y e e' : Nat} (hnone : layout.trailing = none) (ho : OpensLine src y) (hps : header.pieces = some ps)
    (hk : header.shape.kind ≠ .block) (hlt : y < m)
    (hh : Copies src lost y m fun rebase page => ps.foldlM (emitPiece rebase header.shape.children) page)
    (hnote : ∀ text ∈ texts none leads, IsNote text) (ht : Trail src m leads e')
    (hr : Ranks src lost e' slots e) (hf : List.Forall₂ Slot.Fills slots qs) :
    CastsLine src lost (.mk span layout none
      (.caseClause (Parser.withLead header (texts none leads)).node (qs.map Placed.node))) y e := by
  intro rebase base page page' p hi hb hp he
  have hheader : (Parser.withLead header (texts none leads)).node = .mk (some header.span) header.layout
      (some (ps ++ ((texts none leads).map fun text => Piece.text (" " ++ text)).toList))
      header.shape := by
    cases texts none leads <;> simp [Parser.withLead, Placed.node, hps]
  rw [hheader, emitLine] at he
  obtain ⟨page₁, hpage, he⟩ := Except.bind_eq_ok_iff.1 he
  rw [emit_woven hk, List.foldlM_append] at hpage
  obtain ⟨page₀, h₀, h₁⟩ := Except.bind_eq_ok_iff.1 hpage
  simp only [trailing, Node.layout, hnone, ite_self] at he
  obtain ⟨w, q, hw, hq, -, heven⟩ := hh rebase _ page₀ p hi (hp.ready ho) h₀
  have hlead := wrote_lead hi hnote rfl h₁
  obtain ⟨q', hq', heven'⟩ := Recast.trail lost ht (heven (.inl hlt))
  obtain ⟨w', v, r, hw', hwv, hr', hre⟩ := Recast.lines hr hf heven' hi hb he
  refine ⟨base.toList, w ++ beside leads ++ v, r, ?_, hb, (hq.trans hq').trans hr', hre⟩
  simpa [hwv] using (((wrote_write page base).trans hw).trans hlead).trans
    ((wrote_write page₁ "\n").trans hw')

end ParallelTests
