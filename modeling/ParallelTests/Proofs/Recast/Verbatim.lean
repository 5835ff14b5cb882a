import ParallelTests.Proofs.Recast.Read
import ParallelTests.Proofs.Scan.Says

namespace ParallelTests

open Scan

def Scan.Mark.behind (x : Option Lexeme × Bool) : Mark → Option Lexeme × Bool
  | lexeme _ l => (some l, false)
  | m => (x.1, x.2 || m.breaks)

def Scan.lastOf (ms : List Mark) : Option Lexeme × Bool := ms.foldl Mark.behind (none, false)

variable {src : List Char} {lost : Nat → Prop} {p q : Pace} {a b m : Nat} {ms ns : List Mark}
  {w : List Char}

lemma Scan.lastOf_concat (ms : List Mark) (m : Mark) : lastOf (ms ++ [m]) = m.behind (lastOf ms) := by
  rw [lastOf, List.foldl_concat, lastOf]

lemma Scan.lastOf_append_quiet (hq : ∀ m ∈ ns, m.isQuiet = true) :
    lastOf (ms ++ ns) = ((lastOf ms).1, (lastOf ms).2 || ns.any Mark.breaks) := by
  induction ns using List.reverseRecOn with
  | nil => simp
  | append_singleton ns n ih =>
    obtain ⟨hns, hn⟩ := List.forall_mem_append.1 hq
    rw [← List.append_assoc, lastOf_concat, ih hns, List.any_append]
    cases n with
    | lexeme => simp [Mark.isQuiet] at hn
    | _ => simp [Mark.behind, Bool.or_assoc]

structure Pace.Tracks (src : List Char) (p : Pace) (a : Nat) : Prop where
  loose : p.source.broken = true → p.source.loose = true
  last : ∃ ms, Reach src 0 ms a ∧ lastOf ms = (p.last, p.source.broken)

lemma Recast.tracks (h : Recast src lost p a w q b) (hp : p.Tracks src a) : q.Tracks src b := by
  induction h with
  | refl => exact hp
  | skip hop _ ih =>
    obtain ⟨ms, hr, hl⟩ := hp.last
    exact ih ⟨fun _ => rfl, ms, by simpa using hr.trans (.single hop), hl⟩
  | skipLine hop _ ih =>
    obtain ⟨ms, hr, hl⟩ := hp.last
    refine ih ⟨fun _ => rfl, _, hr.trans (.single hop), ?_⟩
    rw [lastOf_concat, hl]
    simp [Mark.behind, Mark.breaks, Gap.newline]
  | lose hop _ _ _ ih =>
    obtain ⟨ms, hr, hl⟩ := hp.last
    refine ih ⟨fun _ => rfl, _, hr.trans (.single hop), ?_⟩
    rw [lastOf_concat, hl]
    rfl
  | blank _ _ _ ih => exact ih ⟨hp.loose, hp.last⟩
  | newline _ ih => exact ih ⟨hp.loose, hp.last⟩
  | remark hop _ _ ih =>
    obtain ⟨ms, hr, hl⟩ := hp.last
    refine ih ⟨fun _ => rfl, _, hr.trans (.single hop), ?_⟩
    rw [lastOf_concat, hl]
    rfl
  | lexeme hop _ _ ih =>
    obtain ⟨ms, hr, hl⟩ := hp.last
    refine ih ⟨(by rintro ⟨⟩), _, hr.trans (.single hop), ?_⟩
    rw [lastOf_concat, hl]
    rfl

structure Pace.Even (src : List Char) (p : Pace) (a : Nat) : Prop where
  tracks : p.Tracks src a
  same : p.source = p.copy
  line : p.line → EndsLine (src.drop a)

namespace Pace.Even

lemma not_line (h : p.Even src a) (hr : Reach src a [] b) {mark : Mark} (hop : Hop src b [mark] m)
    (hm : mark ≠ .newline) : ¬p.line := fun hl => by
  have he := h.line hl
  obtain rfl := eq_of_endsLine hr he
  generalize hms : [mark] = ms at hop
  cases hop with
  | blank => simp at hms
  | @item c x cs k hc hf hk =>
    rw [hc] at he
    obtain rfl := he c (by simp)
    obtain rfl : k = .newline := by simpa using (congrArg Item.kind (Except.ok.inj hf)).symm
    exact hm (by simpa [Class.marks] using hms)

lemma fits (h : p.Even src a) {l : Lexeme} (hop : Hop src a [.lexeme a l] m) :
    p.Fits l (cut src a m) :=
  ⟨h.not_line (.refl (hop.lt.le.trans hop.le_length)) hop (by simp), fun hs => .inl (h.same ▸ hs),
    fun _ _ => by rw [h.same], fun _ _ => by rw [h.same], fun _ hs => h.same ▸ hs⟩

lemma suits (h : p.Even src a) {text : List Char} (hop : Hop src a [.remark text] m) : p.Suits :=
  ⟨h.not_line (.refl (hop.lt.le.trans hop.le_length)) hop (by simp), fun hs => h.same ▸ hs,
    by rw [h.same]⟩

lemma read (h : p.Even src a) {l : Lexeme} (hop : Hop src a [.lexeme a l] m) :
    (p.read l).Even src m := by
  have hr : Recast src (fun _ => False) p a _ _ m := .single_lexeme hop (h.fits hop)
  refine ⟨hr.tracks h.tracks, ?_, False.elim⟩
  rw [Pace.read, h.same]

end Pace.Even

variable (lost) in
lemma Recast.even_note (hop : Hop src a [.remark w] m) (hs : p.Suits)
    (hp : p.Tracks src a) (hb : p.source.broken = p.copy.broken) :
    Recast src lost p a w (p.note w) m ∧ (p.note w).Even src m := by
  have hr : Recast src lost p a w _ m := .single_remark hop hs
  refine ⟨hr, hr.tracks hp, by simp [Pace.note, Gap.remark, hb], fun hl => ?_⟩
  exact @endsLine_of_isLine _ _ _ [] _ (.single hop) hl

variable (lost) in
lemma Recast.newline_blanks {bs : List Char} (hb : ∀ c ∈ bs, isBlank c = true) (p : Pace) (a : Nat) :
    Recast src lost p a ('\n' :: bs) { p with copy := .newline, line := False } a := by
  refine .newline ?_
  obtain ⟨g, hg, he⟩ : ∃ g, Recast src lost { p with copy := .newline, line := False } a bs
      { p with copy := g, line := False } a ∧ g = if bs = [] then .newline else Gap.newline.space :=
    Recast.blanks hb id
  have : g = .newline := by
    rw [he]
    split <;> rfl
  rwa [this] at hg

lemma Recast.spaces (h : Reach src a [] b) :
    Recast src lost p a [] { p with source := if a = b then p.source else p.source.space } b := by
  generalize hm : [] = ms at h
  induction h generalizing p with
  | refl => simpa using Recast.refl
  | @step a m b ns ms hop h ih =>
    obtain ⟨rfl, rfl⟩ := List.append_eq_nil_iff.1 hm.symm
    have hlt := hop.lt
    have hle := h.le
    rw [if_neg (by omega)]
    refine .skip hop ?_
    have := ih (p := { p with source := p.source.space }) rfl
    split at this <;> exact this

variable (lost) in
theorem Recast.verbatim {old new : List Char} (hold : ∀ c ∈ old, isBlank c = true)
    (hnew : ∀ c ∈ new, isBlank c = true) (he : p.Even src a) (h : Reach src a ms b) :
    ∃ q, Recast src lost p a (Rebase.lines old new none (cut src a b)) q b ∧ q.Even src b := by
  induction hn : b - a using Nat.strongRecOn generalizing p a ms with
  | ind n ih =>
    subst hn
    cases h with
    | refl => exact ⟨p, by simpa [Rebase.lines] using Recast.refl, he⟩
    | @step _ m _ ms' ns hop h =>
      have hle := h.le
      have hlt := hop.lt
      have hih {q : Pace} {w : List Char} (hw : Recast src lost p a w q m) (hq : q.Even src m) :
          ∃ r, Recast src lost p a (w ++ Rebase.lines old new none (cut src m b)) r b ∧
            r.Even src b := by
        obtain ⟨r, hr, her⟩ := ih (b - m) (by omega) hq h rfl
        exact ⟨r, hw.trans hr, her⟩
      cases hop with
      | @blank c cs hc hb =>
        rw [cut_of_cons (x := []) hc hle, List.nil_append, ← List.singleton_append,
          Rebase.lines_plain (by simpa using isPlain_of_isBlank hb)]
        have hl : ¬p.line := fun hl => by
          have := he.line hl
          rw [hc] at this
          rw [this c (by simp)] at hb
          simp [isBlank] at hb
        have hw : Recast src lost p a [c]
            { p with source := p.source.space, copy := p.copy.space } (a + 1) :=
          .skip (.blank hc hb) (.blank hb hl .refl)
        refine hih hw ⟨hw.tracks he.tracks, ?_, fun h => absurd h hl⟩
        rw [he.same]
      | @item c x cs k hc hf hk =>
        have hcut := cut_of_cons hc hle
        have hcut' : cut src a (a + x.length + 1) = c :: x := by
          rw [cut_of_cons hc (Nat.le_refl _), cut_self, List.append_nil]
        have hop := Hop.item hc hf hk
        cases k with
        | blank => exact absurd rfl hk
        | lexeme l =>
          have hf' : first c (x ++ cut src (a + x.length + 1) b) = .ok ⟨.lexeme l, x.length⟩ := by
            rw [← drop_of_cons hc, drop_eq_cut_append hle] at hf
            simpa using first_of_stops stops_nil hf
          rw [hcut, Rebase.lines_lexeme hf', ← List.cons_append, ← hcut']
          exact hih (.single_lexeme hop (he.fits hop)) (he.read hop)
        | comment =>
          have hl : Rebase.lines old new none (c :: (x ++ cut src (a + x.length + 1) b)) =
              c :: (x ++ Rebase.lines old new none (cut src (a + x.length + 1) b)) := by
            rcases comment_cases hf with hb | ⟨hl, he⟩
            · exact Rebase.lines_block hb _
            · rw [← drop_of_cons hc, drop_eq_cut_append hle] at he
              exact Rebase.lines_line hl he.of_append
          rw [hcut, hl, ← List.cons_append]
          obtain ⟨hw, hq⟩ := Recast.even_note lost hop (he.suits hop) he.tracks (by rw [he.same])
          exact hih hw hq
        | newline =>
          obtain ⟨rfl, hx⟩ := eq_newline_of_first hf
          obtain rfl := List.length_eq_zero_iff.1 hx
          rw [hcut, List.nil_append, Rebase.lines_newline]
          have hline : Recast src lost p a ['\n']
              { p with source := .newline, copy := .newline, line := False } (a + 0 + 1) :=
            .skipLine hop (.newline .refl)
          split
          · next hp =>
            -- the white space that is replaced is passed over, so the rest starts behind it
            obtain ⟨t, ht⟩ := List.isPrefixOf_iff_prefix.1 (Bool.and_eq_true_iff.1 hp).2
            obtain ⟨h₁, h₂, h₃⟩ := h.skip hold ht.symm
            have hmoved : Recast src lost p a ('\n' :: new)
                { p with source := .newline, copy := .newline, line := False }
                (a + 0 + 1 + old.length) := by
              have hover : Recast src lost { p with source := .newline, copy := .newline, line := False }
                  (a + 0 + 1) [] _ _ := .spaces h₁
              refine .skipLine hop (List.append_nil ('\n' :: new) ▸ .trans (.newline_blanks _ hnew _ _) ?_)
              split at hover <;> exact hover
            obtain ⟨r, hr, her⟩ := ih (b - (a + 0 + 1 + old.length)) (by omega)
              ⟨hmoved.tracks he.tracks, rfl, False.elim⟩ h₂ rfl
            rw [← ht, List.drop_left, ← h₃, ← List.cons_append]
            exact ⟨r, hmoved.trans hr, her⟩
          · exact hih hline ⟨hline.tracks he.tracks, rfl, False.elim⟩

end ParallelTests
