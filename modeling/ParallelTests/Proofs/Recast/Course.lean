import ParallelTests.Proofs.Recast.Nodes
import ParallelTests.Proofs.Parse.Block
import ParallelTests.Proofs.Scan.Tiles
import ParallelTests.Proofs.Semicolon.Automatic

/-!
What stands between two braces in the source: statements, each behind a line end, and the comments
that no statement covers. From it the lines follow that are printed between the braces.
-/

namespace ParallelTests

open Scan Attach TokenGroup

variable {src : List Char} {lost : Nat → Prop} {a b m : Nat} {ms ns : List Mark}

/-! ### Marks between two offsets -/

lemma Scan.Reach.hop_of_mem {mark : Mark} (h : Reach src a ms b) (hm : mark ∈ ms) :
    ∃ xs x y, Reach src a xs x ∧ Hop src x [mark] y ∧ y ≤ b := by
  obtain ⟨xs, ys, rfl⟩ := List.append_of_mem hm
  rw [← List.singleton_append] at h
  obtain ⟨m, hxs, hm⟩ := h.divide
  obtain ⟨n, hmark, hys⟩ := hm.divide
  obtain ⟨x, y, hx, hop, hy⟩ := hmark.exists_hop
  exact ⟨xs ++ [], x, y, hxs.trans hx, hop, hy.le.trans hys.le⟩

lemma Scan.Reach.mem_of_hop {mark : Mark} {x y : Nat} (h : Reach src a ms b) (hx : Reach src a ns x)
    (hop : Hop src x [mark] y) (hb : x < b) : mark ∈ ms := by
  obtain ⟨rest, rfl, hrest⟩ := hx.split h (Nat.le_of_lt hb)
  obtain ⟨rest, rfl, -⟩ := hrest.past hop hb
  simp

lemma Scan.Vacant.of_sync (ha : Sync src a) (hb : Sync src b) (hle : a ≤ b)
    (h : ∀ x y mark, a ≤ x → x < b → Sync src x → Hop src x [mark] y → mark = .newline) :
    Vacant src a b := by
  obtain ⟨ms, hr⟩ := ha.to hb hle
  refine ⟨ms, hr, fun mark hm => ?_⟩
  obtain ⟨xs, x, y, hx, hop, hy⟩ := hr.hop_of_mem hm
  exact h x y mark hx.le (hop.lt.trans_le hy) (ha.reach hx) hop

lemma Scan.Vacant.trans (h : Vacant src a m) (h' : Vacant src m b) : Vacant src a b := by
  obtain ⟨ms, hr, hm⟩ := h
  obtain ⟨ns, hr', hn⟩ := h'
  exact ⟨ms ++ ns, hr.trans hr', List.forall_mem_append.2 ⟨hm, hn⟩⟩

lemma Scan.Vacant.eq_of_hop {l : Lexeme} (h : Vacant src a b) (hop : Hop src a [.lexeme a l] m) :
    a = b := by
  obtain ⟨ms, hr, hm⟩ := h
  by_contra hne
  obtain ⟨rest, rfl, -⟩ := hr.past hop (Nat.lt_of_le_of_ne hr.le hne)
  simpa using hm (.lexeme a l) (by simp)

/-! ### Lines -/

def Scan.lineAt (src : List Char) (a : Nat) : Nat := 1 + (src.take a).count '\n'

lemma Scan.lineAt_add (h : a ≤ b) : lineAt src b = lineAt src a + (cut src a b).count '\n' := by
  have : src.take b = src.take a ++ cut src a b := by
    obtain ⟨k, rfl⟩ := Nat.exists_eq_add_of_le h
    rw [List.take_add, cut, Nat.add_sub_cancel_left]
  rw [lineAt, lineAt, this, List.count_append, Nat.add_assoc]

lemma Scan.Reach.lineAt_eq_iff (h : Reach src a ms b) (hq : ∀ m ∈ ms, m.isQuiet = true) :
    lineAt src b = lineAt src a ↔ ∀ m ∈ ms, m.breaks = false := by
  have hm := h.newline_mem hq
  rw [lineAt_add h.le, Nat.add_eq_left, List.count_eq_zero, hm]
  simp

lemma Scan.Reach.lineAt_eq_iff_nil (h : Reach src a ms b) (hm : ∀ m ∈ ms, m = .newline) :
    lineAt src b = lineAt src a ↔ ms = [] := by
  rw [h.lineAt_eq_iff fun m hmem => by rw [hm m hmem]; rfl]
  refine ⟨fun h => ?_, by rintro rfl; simp⟩
  rw [List.eq_nil_iff_forall_not_mem]
  intro m hmem
  simpa [hm m hmem, Mark.breaks] using h m hmem

structure Scan.Remarked (src : List Char) (c : Comment) : Prop where
  hop : Hop src c.start [.remark c.text.toList] c.stop
  line : c.line = lineAt src c.start
  endLine : c.endLine = lineAt src c.stop

lemma Scan.lineAt_stop {c : Char} {x y : List Char} {k : Scan.Class} (hd : src.drop a = c :: (x ++ y))
    (hf : first c (x ++ y) = .ok ⟨k, x.length⟩) (hk : k ≠ .newline) :
    lineAt src (a + x.length + 1) = lineAt src (a + x.length) := by
  have hlast := getLast?_ne_newline hf hk
  have hne : c :: x ≠ [] := List.cons_ne_nil c x
  have hcut : cut src (a + x.length) (a + x.length + 1) = [(c :: x).getLast hne] := by
    have hx : (c :: x).drop x.length = [(c :: x).getLast hne] :=
      (congrArg (List.drop x.length) (List.dropLast_concat_getLast hne).symm).trans
        (List.drop_left' (by simp))
    rw [cut, ← List.drop_drop, hd, ← List.cons_append, List.drop_append_of_le_length (by simp), hx]
    simp
  rw [List.getLast?_eq_some_getLast hne] at hlast
  rw [lineAt_add (Nat.le_succ _), hcut, Nat.add_eq_left, List.count_eq_zero, List.mem_singleton]
  exact fun h => hlast (congrArg some h.symm)

lemma Tile.Lies.endLine_eq {source : Source} {t : Tile} (h : t.Lies source) {mark : Mark}
    (hop : Hop source.chars t.start [mark] t.stop) (hm : mark ≠ .newline) :
    t.endLine = lineAt source.chars t.stop := by
  rw [h.endLine]
  generalize hms : [mark] = ms at hop
  generalize hstop : t.stop = stop at hop ⊢
  cases hop with
  | blank => simp at hms
  | @item c x cs k hc hf hk =>
    have hk' : k ≠ .newline := by
      rintro rfl
      exact hm (by simpa [Class.marks] using hms)
    exact (lineAt_stop hc hf hk').symm

namespace TokenStream

variable {source : Source} {s : TokenStream}

lemma lies_tile (h : ofSource source = .ok s) :
    (∀ t ∈ s.tokens, t.isAutomatic = false → t.tile.Lies source) ∧
      ∀ c ∈ s.comments, c.tile.Lies source := by
  obtain ⟨its, hits, -, htokens, hcomments, -⟩ := of_ofSource h
  have htiled : Tiled source 0 (its.filterMap Item.tile?) := tiled_of_items hits rfl rfl
  rw [htokens, hcomments]
  refine ⟨fun t ht ha => ?_, fun c hc => ?_⟩
  · obtain ⟨i, hi, hit⟩ := List.mem_filterMap.1 ht
    refine (htiled.mem (List.mem_filterMap.2 ⟨i, hi, ?_⟩)).2
    cases i <;> simp_all [Item.token?, Item.tile?]
  · obtain ⟨i, hi, hic⟩ := List.mem_filterMap.1 hc
    refine (htiled.mem (List.mem_filterMap.2 ⟨i, hi, ?_⟩)).2
    cases i <;> simp_all [Item.comment?, Item.tile?]

lemma remarked (h : ofSource source = .ok s) : ∀ c ∈ s.comments, Remarked source.chars c := by
  intro c hc
  have hlies := (lies_tile h).2 c hc
  have hop := ((noted h).mem sync_zero hc).2
  exact ⟨hop, hlies.line, hlies.endLine_eq hop (by simp)⟩

lemma endLine_token (h : ofSource source = .ok s) {t : Token} (ht : t ∈ s.tokens)
    (hop : Hop source.chars t.start [.lexeme t.start t.lexeme] t.stop) :
    t.endLine = lineAt source.chars t.stop :=
  ((lies_tile h).1 t ht (by simpa [Token.isAutomatic] using hop.not_automatic)).endLine_eq hop (by simp)

end TokenStream

/-! ### Statements one behind the other -/

inductive Strides (src : List Char) (gap : Mark → Bool) :
    Bool → Nat → Lexeme → List Placed → Nat → Prop
  | nil {fresh : Bool} {a b : Nat} {last : Lexeme} {ms : List Mark} (h : Reach src a ms b)
      (hg : ∀ m ∈ ms, gap m = true) : Strides src gap fresh a last [] b
  | cons {fresh fresh' : Bool} {a b m y : Nat} {last last' l : Lexeme} {p : Placed} {ps : List Placed}
      {ms ns : List Mark} (h : Reach src a ms p.span.start) (hg : ∀ m ∈ ms, gap m = true)
      (hend : if fresh then last.endsLine = false else ∃ m ∈ ms, m.ends last.endsLine = true)
      (hop : Hop src p.span.start [.lexeme p.span.start l] m) (hl : l.isSemicolon = false)
      (hr : Reach src p.span.start (ns ++ [.lexeme y last']) p.span.stop)
      (hf : fresh' = true → p.shape.kind = .caseClause)
      (rest : Strides src gap fresh' p.span.stop last' ps b) : Strides src gap fresh a last (p :: ps) b

lemma Lexeme.isSemicolon_eq (t : Token) : t.lexeme.isSemicolon = t.isSemicolon := by
  rw [Token.isSemicolon]
  cases t.lexeme <;> rfl

lemma Rows.strides {fresh : Bool} {gs sems : List TokenGroup} {ps : List Placed} {o c : Token}
    (h : Rows src fresh gs ps) (hs : ∀ g ∈ sems, g.isSemicolon = true)
    (hc : Chain src (o :: tokens (gs ++ sems) ++ [c])) (ho : o.isSemicolon = false)
    (hc' : c.isSemicolon = false) (hf : fresh = true → o.lexeme.endsLine = false) :
    Strides src Mark.isGap fresh o.stop o.lexeme ps c.start := by
  induction h generalizing o with
  | nil =>
    obtain ⟨ms, hr, hg, -⟩ := hc.gap ho (forall_tokens_of_semis hs).1 hc'
    exact .nil hr hg
  | @cons fresh fresh' sems' gs st p ps hs' hne hp hcol h ih =>
    obtain ⟨fs, hfs⟩ := st.tokens_eq_first
    obtain ⟨ls, hls⟩ := st.tokens_eq_last
    obtain ⟨hsem, hsne⟩ := forall_tokens_of_semis hs'
    have htokens : o :: tokens (sems' ++ (st.toList ++ gs) ++ sems) ++ [c] =
        o :: tokens sems' ++ (tokens st.toList ++ (tokens (gs ++ sems) ++ [c])) := by
      simp [tokens_append]
    rw [htokens] at hc
    have hst : Chain src (tokens st.toList) := hc.right.left
    have hgap := hc
    rw [hfs] at hgap
    obtain ⟨gap, hr, hg, he⟩ := hgap.gap ho hsem hp.first
    have hfirst := hst.mem (t := st.first) (by simp [hfs])
    have hlast := hst.mem (t := st.last) (by simp [hls])
    obtain ⟨ms, hm⟩ := hfirst.1.to hlast.1 (hst.first_le (by simp [hls]))
    have hnext : Chain src (st.last :: tokens (gs ++ sems) ++ [c]) := by
      have := hc.right
      rw [hls, List.append_assoc] at this
      exact this.right
    have hstart : p.span.start = st.first.start := by rw [hp.span_eq]; rfl
    have hstop : p.span.stop = st.last.stop := by rw [hp.span_eq]; rfl
    refine .cons (hstart ▸ hr) hg ?_
      (hstart ▸ hst.hop (by simp [hfs]) (Token.isAutomatic_of_isSemicolon hp.first))
      (Lexeme.isSemicolon_eq _ ▸ hp.first)
      (hstart ▸ hstop ▸ hm.trans
        (.single (hst.hop (by simp [hls]) (Token.isAutomatic_of_isSemicolon hp.last))))
      (fun hf' => (hcol hf').1) (hstop ▸ ih hnext hp.last fun hf' => ?_)
    · split
      · next hfr => exact hf hfr
      · next hfr => exact he.2 (hsne.2 (hne (by simpa using hfr)))
    · rw [(hcol hf').2]
      rfl

def Unwritten (src : List Char) (a : Nat) (ps : List Placed) (b : Nat) : Prop :=
  ∀ x y, a ≤ x → x < b → Sync src x → Hop src x [.lexeme x (.semicolon true)] y →
    ∃ p ∈ ps, p.span.start ≤ x ∧ x < p.span.stop

lemma quiet_of_isGap (ha : Sync src a) (h : Reach src a ms b) (hg : ∀ m ∈ ms, m.isGap = true)
    (hu : Unwritten src a [] b) : ∀ m ∈ ms, m.isQuiet = true := by
  intro m hm
  cases m with
  | lexeme start l =>
    obtain ⟨xs, x, y, hx, hop, hy⟩ := h.hop_of_mem hm
    obtain ⟨-, -, -, rfl, -⟩ := hop.lexeme_inv
    obtain ⟨w, rfl⟩ : ∃ w, l = .semicolon w := by
      have := hg _ hm
      cases l <;> simp_all [Mark.isGap]
    cases w with
    | false => exact absurd rfl hop.not_automatic
    | true => simpa using hu start y hx.le (hop.lt.trans_le hy) (ha.reach hx) hop
  | _ => rfl

lemma breaks_of_ends {k : Mark} {pending : Bool} (hk : k.isQuiet = true)
    (he : k.ends pending = true) : k.breaks = true := by
  cases k <;> simp_all [Mark.ends, Mark.isQuiet]

namespace Strides

variable {gap : Mark → Bool} {fresh : Bool} {last : Lexeme} {ps : List Placed}

lemma bounds (h : Strides src gap fresh a last ps b) :
    a ≤ b ∧ ∀ p ∈ ps, a ≤ p.span.start ∧ p.span.start < p.span.stop ∧ p.span.stop ≤ b := by
  induction h with
  | nil h => exact ⟨h.le, by simp⟩
  | @cons _ _ _ _ _ _ _ _ _ p _ _ _ h _ _ hop _ hr _ _ ih =>
    obtain ⟨hle, hps⟩ := ih
    have hlt : p.span.start < p.span.stop := by
      by_contra hn
      simpa using hr.marks_eq_nil (Nat.le_of_not_lt hn)
    have := h.le
    refine ⟨by omega, List.forall_mem_cons.2 ⟨⟨h.le, hlt, hle⟩, fun q hq => ?_⟩⟩
    obtain ⟨hq, hq'⟩ := hps q hq
    exact ⟨by omega, hq'⟩

lemma quiet (h : Strides src Mark.isGap fresh a last ps b) (ha : Sync src a)
    (hu : Unwritten src a ps b) : Strides src Mark.isQuiet fresh a last ps b := by
  induction h with
  | nil h hg => exact .nil h (quiet_of_isGap ha h hg hu)
  | @cons _ _ _ _ _ _ _ _ _ p ps _ _ h hg hend hop hl hr hf rest ih =>
    obtain ⟨-, hps⟩ := rest.bounds
    have hle := hr.le
    refine .cons h (quiet_of_isGap ha h hg fun x y hx hx' hs hx'' => ?_) hend hop hl hr hf
      (ih ((ha.reach h).reach hr) fun x y hx hx' hs hx'' => ?_)
    · obtain ⟨q, hq, hqx, -⟩ := hu x y hx (by have := rest.bounds.1; omega) hs hx''
      rcases List.mem_cons.1 hq with rfl | hq
      · omega
      · have := (hps q hq).1
        omega
    · obtain ⟨q, hq, hqx, hqx'⟩ := hu x y (by have := h.le; omega) hx' hs hx''
      rcases List.mem_cons.1 hq with rfl | hq
      · omega
      · exact ⟨q, hq, hqx, hqx'⟩

lemma opens (h : Strides src Mark.isQuiet fresh a last ps b) {y : Nat} {xs : List Mark}
    (ha : Reach src 0 (xs ++ [.lexeme y last]) a) : ∀ p ∈ ps, OpensLine src p.span.start := by
  induction h generalizing y xs with
  | nil => simp
  | @cons fresh _ _ _ m _ last _ l p _ ms _ h hg hend hop hl hr _ _ ih =>
    have hnext := (ha.trans h).trans hr
    rw [← List.append_assoc] at hnext
    refine List.forall_mem_cons.2 ⟨⟨⟨l, m, hop, hl⟩, _, ha.trans h, ?_⟩, ih hnext⟩
    rw [lastOf_append_quiet hg, lastOf_concat]
    simp only [Mark.behind, Option.any_some, Bool.false_or]
    intro hends
    cases fresh with
    | true => simp_all
    | false =>
      obtain ⟨k, hk, hke⟩ := by simpa using hend
      exact List.any_eq_true.2 ⟨k, hk, breaks_of_ends (hg k hk) hke⟩

lemma covers (h : Strides src Mark.isQuiet fresh a last ps b) {x y : Nat} {l : Lexeme}
    (hx : Reach src a ns x) (hb : x < b) (hop : Hop src x [.lexeme x l] y) :
    ∃ p ∈ ps, p.span.start ≤ x ∧ x < p.span.stop := by
  induction h generalizing ns with
  | nil h hg => simpa [Mark.isQuiet] using hg _ (h.mem_of_hop hx hop hb)
  | @cons _ _ _ _ _ _ _ _ _ p _ _ _ h hg _ _ _ hr _ _ ih =>
    rcases Nat.lt_or_ge x p.span.start with hlt | hge
    · simpa [Mark.isQuiet] using hg _ (h.mem_of_hop hx hop hlt)
    · rcases Nat.lt_or_ge x p.span.stop with hlt | hge'
      · exact ⟨p, by simp, hge, hlt⟩
      · obtain ⟨rest, -, hrest⟩ := (h.trans hr).split hx hge'
        obtain ⟨q, hq, hqx⟩ := ih hrest hb
        exact ⟨q, by simp [hq], hqx⟩

lemma lineAt_lt (h : Strides src Mark.isQuiet false a last ps b) (hne : ps ≠ []) :
    lineAt src a < lineAt src b := by
  cases h with
  | nil => exact absurd rfl hne
  | @cons _ _ _ _ _ _ _ _ _ p _ ms _ h hg hend _ _ hr _ rest =>
    obtain ⟨k, hk, hke⟩ := by simpa using hend
    have hb := breaks_of_ends (hg k hk) hke
    have hne : lineAt src p.span.start ≠ lineAt src a := fun he => by
      simpa [hb] using (h.lineAt_eq_iff hg).1 he k hk
    have hstart := @lineAt_add src _ _ h.le
    have hstop := @lineAt_add src _ _ (hr.le.trans rest.bounds.1)
    omega

lemma single (h : Strides src Mark.isQuiet fresh a last ps b)
    (hk : ∀ p ∈ ps, p.shape.kind ≠ .caseClause) (hl : lineAt src b = lineAt src a) :
    ps = [] ∨ ∃ p, ps = [p] := by
  cases h with
  | nil => exact .inl rfl
  | @cons _ fresh' _ _ _ _ _ _ _ p ps _ _ h _ _ _ _ hr hf rest =>
    right
    cases fresh' with
    | true => exact absurd (hf rfl) (hk p (by simp))
    | false =>
      by_cases hne : ps = []
      · exact ⟨p, by rw [hne]⟩
      · have := rest.lineAt_lt hne
        have := @lineAt_add src _ _ (h.le.trans hr.le)
        omega

end Strides

/-! ### Statements and comments -/

inductive Course (src : List Char) : Nat → List Attach.Entry → List Occupant → Nat → Prop
  | nil {a b : Nat} (h : Vacant src a b) : Course src a [] [] b
  | comment {a b : Nat} {c : Comment} {es : List Attach.Entry} {os : List Occupant}
      (h : Vacant src a c.start) (hc : Remarked src c) (rest : Course src c.stop es os b) :
      Course src a (.comment c :: es) os b
  | stmt {a b : Nat} {o : Occupant} {es : List Attach.Entry} {os : List Occupant}
      (h : Vacant src a o.stmt.span.start) (rest : Course src o.stop es os b) :
      Course src a (.stmt o.stmt :: es) (o :: os) b

lemma Scan.Sync.le_of_hop {x : Nat} (ha : Sync src a) (hx : Sync src x) (hop : Hop src a ms m)
    (h : a < x) : m ≤ x := by
  obtain ⟨ns, hr⟩ := ha.to hx (Nat.le_of_lt h)
  obtain ⟨rest, -, hrest⟩ := hr.past hop h
  exact hrest.le

lemma Attach.stmt_mem_of_filterMap {es : List Attach.Entry} {ps : List Placed}
    (h : es.filterMap Attach.Entry.stmt? = ps) {p : Placed} (hp : p ∈ ps) : .stmt p ∈ es := by
  obtain ⟨e, he, hep⟩ := List.mem_filterMap.1 (h ▸ hp)
  cases e with
  | stmt => exact Option.some.inj hep ▸ he
  | comment => cases hep

lemma course_of_entries {es : List Attach.Entry} {os : List Occupant}
    (hes : es.filterMap Attach.Entry.stmt? = os.map (·.stmt)) (hp : es.Pairwise fun d e => d.start < e.start)
    (hl : Lined a os b) (ha : Sync src a) (hb : Sync src b)
    (ho : ∀ o ∈ os, Sync src o.stmt.span.start ∧ Sync src o.stop)
    (hc : ∀ c, .comment c ∈ es → Remarked src c ∧ Sync src c.start ∧ a ≤ c.start ∧ c.start < b ∧
      ∀ o ∈ os, covers o c = false)
    (h : ∀ x y mark, a ≤ x → x < b → Sync src x → Hop src x [mark] y → mark = .newline ∨
      (∃ c, .comment c ∈ es ∧ c.start = x) ∨ ∃ o ∈ os, o.stmt.span.start ≤ x ∧ x < o.stop) :
    Course src a es os b := by
  induction es generalizing a os with
  | nil =>
    obtain rfl : os = [] := List.map_eq_nil_iff.1 hes.symm
    exact .nil (.of_sync ha hb hl.le fun x y mark hx hx' hs hop => by simpa using h x y mark hx hx' hs hop)
  | cons e es ih =>
    obtain ⟨he, hp'⟩ := List.pairwise_cons.1 hp
    -- nothing that is read before the first entry belongs to an entry
    have hvacant (hsync : Sync src e.start) (hae : a ≤ e.start) (heb : e.start ≤ b)
        (hos : ∀ o ∈ os, e.start ≤ o.stmt.span.start) : Vacant src a e.start := by
      refine .of_sync ha hsync hae fun x y mark hx hx' hs hop => ?_
      rcases h x y mark hx (by omega) hs hop with hn | ⟨c, hmem, rfl⟩ | ⟨o, hmem, hox, -⟩
      · exact hn
      · rcases List.mem_cons.1 hmem with rfl | hmem
        · exact absurd hx' (Nat.lt_irrefl _)
        · exact absurd hx' (Nat.lt_asymm (he _ hmem))
      · have := hos o hmem
        omega
    have hstarts : ∀ o ∈ os, .stmt o.stmt ∈ e :: es := fun o hmem =>
      stmt_mem_of_filterMap hes (List.mem_map_of_mem hmem)
    have hfirst : ∀ o ∈ os, e.start ≤ o.stmt.span.start := fun o hmem => by
      rcases List.mem_cons.1 (hstarts o hmem) with rfl | hmem
      · exact Nat.le_refl _
      · exact Nat.le_of_lt (he _ hmem)
    cases e with
    | comment c =>
      obtain ⟨hr, hsync, hac, hcb, hfree⟩ := hc c (by simp)
      have hstop : Sync src c.stop := hsync.reach (.single hr.hop)
      have hlt := hr.hop.lt
      have hend : c.stop ≤ b := hsync.le_of_hop hb hr.hop hcb
      have hlater {x : Nat} (hx : Sync src x) (hcx : c.start < x) : c.stop ≤ x :=
        hsync.le_of_hop hx hr.hop hcx
      have hbehind : ∀ o ∈ os, c.stop ≤ o.stmt.span.start := fun o hmem => by
        have := hstarts o hmem
        simp only [List.mem_cons, reduceCtorEq, false_or] at this
        exact hlater (ho o hmem).1 (he _ this)
      have hl' : Lined c.stop os b := by
        cases os with
        | nil => exact hend
        | cons o os => exact ⟨hbehind o (by simp), hl.2⟩
      refine .comment (hvacant hsync hac (Nat.le_of_lt hcb) hfirst) hr
        (ih hes hp' hl' hstop ho (fun d hd => ?_) fun x y mark hx hx' hs hop => ?_)
      · obtain ⟨hd', hs, -, hdb, hf⟩ := hc d (List.mem_cons_of_mem _ hd)
        exact ⟨hd', hs, hlater hs (he _ hd), hdb, hf⟩
      · rcases h x y mark (by omega) hx' hs hop with hn | ⟨d, hd, rfl⟩ | hox
        · exact .inl hn
        · refine .inr (.inl ⟨d, ?_, rfl⟩)
          rcases List.mem_cons.1 hd with hd | hd
          · cases hd
            omega
          · exact hd
        · exact .inr (.inr hox)
    | stmt p =>
      cases os with
      | nil => simp [Attach.Entry.stmt?] at hes
      | cons o os =>
        obtain ⟨rfl, hes'⟩ : p = o.stmt ∧ es.filterMap Attach.Entry.stmt? = os.map (·.stmt) := by
          simpa [Attach.Entry.stmt?] using hes
        obtain ⟨hao, hle, hrise, hl'⟩ := hl
        obtain ⟨⟨hs, hs'⟩, ho'⟩ := List.forall_mem_cons.1 ho
        refine .stmt (hvacant hs hao (hle.trans hl'.le) hfirst)
          (ih hes' hp' hl' hs' ho' (fun c hmem => ?_) fun x y mark hx hx' hsx hop => ?_)
        · obtain ⟨hr, hsc, -, hcb, hf⟩ := hc c (List.mem_cons_of_mem _ hmem)
          have hstart : o.stmt.span.start < c.start := he _ hmem
          have hcov := hf o (by simp)
          refine ⟨hr, hsc, ?_, hcb, fun o' hmem' => hf o' (by simp [hmem'])⟩
          simp only [covers, Bool.and_eq_false_iff, decide_eq_false_iff_not] at hcov
          omega
        · rcases h x y mark (by omega) hx' hsx hop with hn | ⟨c, hmem, rfl⟩ | ⟨o', hmem, hox⟩
          · exact .inl hn
          · exact .inr (.inl ⟨c, by simpa using hmem, rfl⟩)
          · rcases List.mem_cons.1 hmem with rfl | hmem
            · omega
            · exact .inr (.inr ⟨o', hmem, hox⟩)

inductive Occupant.Casts (src : List Char) (lost : Nat → Prop) (o : Occupant) : Prop
  | stmt (hline : o.stmt.span.endLine = lineAt src o.stop)
      (h : ∀ blank cs e, Trail src o.stop cs e →
        CastsLine src lost (o.stmt.laidOut blank (texts none cs)).node o.stmt.span.start e)
  | clause {e m : Nat} {l : Lexeme} (hop : Hop src o.stop [.lexeme o.stop l] m)
      (hv : Vacant src e o.stop)
      (h : ∀ blank, CastsLine src lost (o.stmt.laidOut blank none).node o.stmt.span.start e)

namespace Course

variable {es : List Attach.Entry} {os : List Occupant} {cs : List Comment} {line : Nat}

lemma trail (h : Course src a (cs.map .comment ++ es) os b) (hj : Joins line cs)
    (hline : line = lineAt src a) :
    ∃ e, Trail src a cs e ∧ Course src e es os b ∧ lastLine line cs = lineAt src e := by
  induction cs generalizing a line with
  | nil => exact ⟨a, .nil, h, hline⟩
  | cons c cs ih =>
    cases h with
    | comment hv hc rest =>
      obtain ⟨rfl, hj⟩ := hj
      obtain ⟨ms, hr, hm⟩ := hv
      obtain rfl := (hr.lineAt_eq_iff_nil hm).1 (hc.line ▸ hline)
      have hle := @lineAt_add src _ _ hc.hop.lt.le
      rw [← hc.endLine, ← hc.line] at hle
      have hmax : max c.line c.endLine = c.endLine := by omega
      obtain ⟨e, ht, hrest, hl⟩ := ih rest (hmax ▸ hj) hc.endLine
      exact ⟨e, .cons hr hc.hop ht, hrest, by rw [lastLine, List.foldl_cons, hmax]; exact hl⟩

lemma not_comment {c : Comment} {l : Lexeme} (hop : Hop src a [.lexeme a l] m) :
    ¬Course src a (.comment c :: es) os b := by
  intro h
  cases h with
  | comment hv hc =>
    obtain rfl := hv.eq_of_hop hop
    have := (hop.unique hc.hop).1
    simp at this

lemma ranks {slots : List Slot} (h : Course src a (slots.flatMap Slot.entries) os b)
    (hs : Seated line slots) (ho : ∀ o ∈ os, o.Casts src lost) {y : Nat}
    (ha : line = lineAt src a ∧ y = a ∨ Vacant src y a ∧ ∃ l m, Hop src a [.lexeme a l] m) :
    ∃ e, Ranks src lost y slots e ∧ Vacant src e b := by
  induction slots generalizing a os line y with
  | nil =>
    cases h with
    | nil hv =>
      refine ⟨y, .nil, ?_⟩
      rcases ha with ⟨-, rfl⟩ | ⟨hy, -⟩
      · exact hv
      · exact hy.trans hv
  | cons x slots ih =>
    obtain ⟨entry, cs⟩ := x
    obtain ⟨hfirst, hjoins, hseated⟩ := hs
    rw [List.flatMap_cons, Slot.entries, List.cons_append] at h
    cases entry with
    | comment c =>
      rcases ha with ⟨hline, rfl⟩ | ⟨-, l, m, hop⟩
      · cases h with
        | comment hv hc rest =>
          obtain ⟨ms, hr, hm⟩ := hv
          have hne : ms ≠ [] := fun he =>
            hfirst c rfl (hc.line.trans (((hr.lineAt_eq_iff_nil hm).2 he).trans hline.symm))
          obtain ⟨e, ht, hrest, hl⟩ := rest.trail hjoins hc.endLine
          obtain ⟨e', hranks, hv'⟩ := ih hrest hseated ho (.inl ⟨hl, rfl⟩)
          exact ⟨e', .comment hr hm hne hc.hop ht hranks, hv'⟩
      · exact absurd h (not_comment hop)
    | stmt p =>
      cases h with
      | @stmt _ _ o _ os hv rest =>
        obtain ⟨hcast, ho⟩ := List.forall_mem_cons.1 ho
        have hy : Vacant src y o.stmt.span.start := by
          rcases ha with ⟨-, rfl⟩ | ⟨hy, -⟩
          · exact hv
          · exact hy.trans hv
        cases hcast with
        | stmt hline hp =>
          obtain ⟨e, ht, hrest, hl⟩ := rest.trail hjoins hline
          obtain ⟨e', hranks, hv'⟩ := ih hrest hseated ho (.inl ⟨hl, rfl⟩)
          exact ⟨e', .stmt hy (fun blank => hp blank cs e ht) hranks, hv'⟩
        | @clause e m l hop hve hp =>
          cases cs with
          | cons c cs => exact absurd rest (not_comment hop)
          | nil =>
            obtain ⟨e', hranks, hv'⟩ := ih rest hseated ho (.inr ⟨hve, l, m, hop⟩)
            exact ⟨e', .stmt hy hp hranks, hv'⟩


end Course

end ParallelTests
