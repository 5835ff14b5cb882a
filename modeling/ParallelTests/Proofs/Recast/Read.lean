import Mathlib.Data.List.Induction
import ParallelTests.Proofs.Print.LineStarts
import ParallelTests.Proofs.Recast.Pace

/-!
The items of a source and those of its copy. They come in the same order; only a semicolon before a
closing brace may be added, and a comment lost.
-/

namespace ParallelTests

open Scan

structure Twin where
  source : Token
  copy : Token

def notes (line : Nat) : List Comment → List (Bool × String)
  | [] => []
  | c :: cs => (decide (c.line = line), c.text) :: notes c.endLine cs

def endOf (line : Nat) (cs : List Comment) : Nat := (cs.getLast?.map Comment.endLine).getD line

lemma endOf_concat (line : Nat) (cs : List Comment) (c : Comment) :
    endOf line (cs ++ [c]) = c.endLine := by
  simp [endOf]

lemma notes_concat (line : Nat) (cs : List Comment) (c : Comment) :
    notes line (cs ++ [c]) = notes line cs ++ [(decide (c.line = endOf line cs), c.text)] := by
  induction cs generalizing line with
  | nil => rfl
  | cons d cs ih =>
    have he : endOf line (d :: cs) = endOf d.endLine cs := by
      cases cs using List.reverseRecOn with
      | nil => rfl
      | append_singleton cs e => rw [← List.cons_append, endOf_concat, endOf_concat]
    rw [List.cons_append, notes, notes, ih, he, List.cons_append]

structure Meets (lost : Nat → Prop) (x : Twin) (cs cs' : List Comment) (t t' : Token) : Prop where
  notes : (∀ c ∈ cs, ¬lost c.start) → notes x.source.endLine cs = notes x.copy.endLine cs'
  touch : (∃ name, x.source.lexeme = .ident name) → t.lexeme = .op (.opening .square) →
    (t.start = x.source.stop ↔ t'.start = x.copy.stop)

inductive Alike (lost : Nat → Prop) :
    Twin → List Comment → List Comment → List Item → List Item → Prop
  | nil {x : Twin} {cs cs' : List Comment} : Alike lost x cs cs' [] []
  | semicolon {x : Twin} {cs cs' : List Comment} {its its' : List Item} {t t' : Token}
      (ht : t.isSemicolon = true) (he : t'.lexeme = t.lexeme) (h : Alike lost x cs cs' its its') :
      Alike lost x cs cs' (.token t :: its) (.token t' :: its')
  | comment {x : Twin} {cs cs' : List Comment} {its its' : List Item} {c c' : Comment}
      (h : Alike lost x (cs ++ [c]) (cs' ++ [c']) its its') :
      Alike lost x cs cs' (.comment c :: its) (.comment c' :: its')
  | lose {x : Twin} {cs cs' : List Comment} {its its' : List Item} {c : Comment}
      (h : Alike lost x (cs ++ [c]) cs' its its') : Alike lost x cs cs' (.comment c :: its) its'
  | word {x : Twin} {cs cs' : List Comment} {its its' : List Item} {t t' : Token}
      (ht : t.isSemicolon = false) (he : t'.lexeme = t.lexeme) (hm : Meets lost x cs cs' t t')
      (h : Alike lost ⟨t, t'⟩ [] [] its its') :
      Alike lost x cs cs' (.token t :: its) (.token t' :: its')
  | extra {x : Twin} {cs cs' : List Comment} {its its' : List Item} {t t' e : Token}
      (hx : e.lexeme = .semicolon false) (ht : t.lexeme = .closeCurly) (he : t'.lexeme = t.lexeme)
      (hm : Meets lost x cs cs' t t') (h : Alike lost ⟨t, t'⟩ [] [] its its') :
      Alike lost x cs cs' (.token t :: its) (.token e :: .token t' :: its')

variable {src : List Char} {lost : Nat → Prop} {p q : Pace} {a b m : Nat} {w : List Char}

lemma Scan.Hop.lexeme_cut {l : Lexeme} (h : Hop src a [.lexeme a l] m) :
    ∃ c x, cut src a m = c :: x ∧ src.drop a = c :: (x ++ src.drop m) ∧
      first c (x ++ src.drop m) = .ok ⟨.lexeme l, x.length⟩ ∧ a + (c :: x).length = m := by
  obtain ⟨c, x, cs, -, hc, hf, rfl⟩ := h.lexeme_inv
  refine ⟨c, x, ?_, ?_, ?_, rfl⟩
  · rw [cut_of_cons hc (Nat.le_refl _), cut_self, List.append_nil]
  · rw [drop_of_cons hc, hc]
  · rwa [drop_of_cons hc]

lemma Scan.Hop.remark_drop {text : List Char} (h : Hop src a [.remark text] m) :
    ∃ c x, text = c :: x ∧ src.drop a = c :: (x ++ src.drop m) ∧
      first c (x ++ src.drop m) = .ok ⟨.comment, x.length⟩ ∧ a + text.length = m := by
  obtain ⟨c, x, cs, rfl, hc, hf, rfl⟩ := h.remark_inv
  exact ⟨c, x, rfl, by rw [drop_of_cons hc, hc], by rwa [drop_of_cons hc], rfl⟩

lemma Scan.Hop.newline_drop (h : Hop src a [.newline] m) :
    src.drop a = '\n' :: src.drop m ∧ a + 1 = m := by
  generalize hm : [Mark.newline] = ms at h
  cases h with
  | blank => simp at hm
  | @item c x cs k hc hf =>
    cases k with
    | newline =>
      obtain ⟨rfl, hx⟩ := eq_newline_of_first hf
      obtain rfl := List.length_eq_zero_iff.1 hx
      exact ⟨by rw [drop_of_cons hc, hc]; rfl, rfl⟩
    | _ => simp [Class.marks] at hm

namespace Recast

lemma endsLine_of_line (h : Recast src lost p a w q b) (hl : p.line) : EndsLine w := by
  induction h with
  | refl => exact endsLine_nil
  | skip _ _ ih | skipLine _ _ ih | lose _ _ _ _ ih => exact ih hl
  | blank _ hn => exact absurd hl hn
  | newline => exact endsLine_newline _
  | remark _ hs => exact absurd hl hs.line
  | lexeme _ hf => exact absurd hl hf.line

lemma stops_of_apart (h : Recast src lost p a w q b) (hs : p.source.apart = true)
    (hc : p.copy.apart = false) : Stops w := by
  induction h with
  | refl => exact stops_nil
  | skip _ _ ih | skipLine _ _ ih | lose _ _ _ _ ih => exact ih rfl hc
  | blank hb => exact stops_cons (by simp [isStop, hb])
  | newline => exact stops_cons rfl
  | remark _ h => simp [h.apart hs] at hc
  | lexeme hop hf =>
    rcases hf.apart hs with h | h
    · simp [h] at hc
    · obtain ⟨c, x, hcut, -⟩ := hop.lexeme_cut
      rw [hcut] at h ⊢
      exact stops_cons (h c rfl)

lemma agrees (h : Recast src lost p a w q b) (hs : p.source.apart = false)
    (hc : p.copy.apart = false) : ∃ u v v', src.drop a = u ++ v ∧ w = u ++ v' ∧ Stops v' := by
  induction h with
  | refl => exact ⟨[], _, [], rfl, rfl, stops_nil⟩
  | skip _ h | skipLine _ h | lose _ _ _ h =>
    exact ⟨[], _, _, rfl, rfl, h.stops_of_apart rfl hc⟩
  | blank hb => exact ⟨[], _, _, rfl, rfl, stops_cons (by simp [isStop, hb])⟩
  | newline => exact ⟨[], _, _, rfl, rfl, stops_cons rfl⟩
  | remark hop _ _ ih =>
    obtain ⟨u, v, v', hu, rfl, hv⟩ := ih rfl rfl
    obtain ⟨c, x, rfl, hd, -, -⟩ := hop.remark_drop
    exact ⟨c :: x ++ u, v, v', by rw [hd, hu]; simp, by simp, hv⟩
  | lexeme hop _ _ ih =>
    obtain ⟨u, v, v', hu, rfl, hv⟩ := ih rfl rfl
    obtain ⟨c, x, hcut, hd, -, -⟩ := hop.lexeme_cut
    exact ⟨c :: x ++ u, v, v', by rw [hd, hu]; simp, by rw [hcut]; simp, hv⟩

end Recast

/-! ### Ends of items -/

lemma getLast?_literal {mark : Char} {x : List Char} (h : literalLength mark x = some x.length) :
    x.getLast? = some mark := by
  fun_induction literalLength mark x with
  | case1 => simp at h
  | case2 d x ih =>
    obtain ⟨n, hn, he⟩ := Option.map_eq_some_iff.1 h
    obtain rfl : n = x.length := by simpa using he
    rw [List.getLast?_cons_cons, List.getLast?_cons, ih hn]
    rfl
  | case3 x =>
    obtain rfl : x = [] := by simpa using h
    rfl
  | case4 => simp at h
  | case5 c x _ hc hb ih =>
    obtain ⟨n, hn, he⟩ := Option.map_eq_some_iff.1 h
    obtain rfl : n = x.length := by simpa using he
    rw [List.getLast?_cons, ih hn]
    rfl

lemma getLast?_raw {x : List Char} (h : rawLength x = some x.length) : x.getLast? = some '\x60' := by
  induction x with
  | nil => simp [rawLength] at h
  | cons c x ih =>
    by_cases hc : c = '\x60'
    · subst hc
      obtain rfl : x = [] := by simpa [rawLength, runLength] using h
      rfl
    · have hx : rawLength x = some x.length := by simpa [rawLength, runLength, hc] using h
      rw [List.getLast?_cons, ih hx]
      rfl

lemma getLast?_block {x : List Char} (h : blockLength x = some x.length) : x.getLast? = some '/' := by
  fun_induction blockLength x with
  | case1 => simp at h
  | case2 x =>
    obtain rfl : x = [] := by simpa using h
    rfl
  | case3 c x _ ih =>
    obtain ⟨n, hn, he⟩ := Option.map_eq_some_iff.1 h
    obtain rfl : n = x.length := by simpa using he
    rw [List.getLast?_cons, ih hn]
    rfl

lemma isQuoted_ofWord (word : String) : (Lexeme.ofWord word).isQuoted = false := by
  unfold Lexeme.ofWord
  split <;> rfl

lemma getLast?_ne_newline {c : Char} {x y : List Char} {k : Scan.Class}
    (h : first c (x ++ y) = .ok ⟨k, x.length⟩) (hk : k ≠ .newline) :
    (c :: x).getLast? ≠ some '\n' := by
  have hcons {d : Char} (hd : x.getLast? = some d) : (c :: x).getLast? = some d := by
    rw [List.getLast?_cons, hd]
    rfl
  have hplain (hn : ∀ d ∈ c :: x, d ≠ '\n') : (c :: x).getLast? ≠ some '\n' :=
    fun hd => hn _ (List.mem_of_getLast? hd) rfl
  by_cases hq : k.isQuoted = true
  · obtain ⟨n, hn⟩ : ∃ n, n = x.length := ⟨_, rfl⟩
    have hcomment (hc : k = .comment) : (c :: x).getLast? ≠ some '\n' := by
      subst hc
      rcases comment_cases h with ⟨z, hz, hb⟩ | ⟨⟨z, hz, hl⟩, -⟩
      · rw [hz, List.getLast?_cons_cons, List.getLast?_cons, getLast?_block hb]
        simp
      · refine hplain fun d hd => ?_
        rw [hz] at hd
        rcases List.mem_cons.1 hd with rfl | hd
        · decide
        · rcases List.mem_cons.1 hd with rfl | hd
          · decide
          · exact hl d hd
    have h' := h
    rw [← hn] at h'
    cases first_found h' with
    | newline => exact absurd rfl hk
    | line | block => exact hcomment rfl
    | literal _ hc hl =>
      rw [hn] at hl
      have hx := literalLength_append (x := x) (y := y) (by rcases hc with rfl | rfl <;> decide) hl []
      rw [List.append_nil] at hx
      rw [hcons (getLast?_literal hx)]
      rcases hc with rfl | rfl <;> simp
    | raw hc hl =>
      rw [hn] at hl
      have hx := rawLength_append hl []
      rw [List.append_nil] at hx
      rw [hcons (getLast?_raw hx)]
      simp
    | word =>
      rw [Class.isQuoted, isQuoted_ofWord] at hq
      cases hq
    | _ => simp [Class.isQuoted, Lexeme.isQuoted] at hq
  · exact hplain (ne_newline_of_first h hk (by simpa using hq))

lemma lastLine_of_getLast? {at_ : Cursor} {text : List Char} (h : text.getLast? ≠ some '\n') :
    at_.lastLine text = (at_.advance text).line := by
  rcases List.eq_nil_or_concat text with rfl | ⟨ts, c, rfl⟩
  · rfl
  · rw [List.concat_eq_append] at h ⊢
    have hc : c ≠ '\n' := by simpa using h
    rw [Cursor.lastLine, List.dropLast_concat, Cursor.advance_append, Cursor.advance_cons,
      Cursor.advance_nil, Cursor.step, if_neg hc]

/-! ### What a gap says about where a reader stands -/

structure Gap.Measures (g : Gap) (u : Token) (cs : List Comment) (at_ : Cursor) : Prop where
  offset : u.stop ≤ at_.offset
  loose : g.loose = false ↔ at_.offset = u.stop
  line : endOf u.endLine cs ≤ at_.line
  fresh : g.fresh = false ↔ at_.line = endOf u.endLine cs

namespace Gap.Measures

variable {g : Gap} {u : Token} {cs : List Comment} {at_ : Cursor}

lemma space (h : g.Measures u cs at_) {c : Char} (hc : isBlank c = true) :
    g.space.Measures u cs (at_.advance [c]) := by
  have hn : c ≠ '\n' := by
    rintro rfl
    simp [isBlank] at hc
  have hline : (at_.advance [c]).line = at_.line := by
    rw [Cursor.line_advance, List.count_eq_zero.2 (by simpa using hn.symm), Nat.add_zero]
  have hoff : (at_.advance [c]).offset = at_.offset + 1 := Cursor.offset_advance at_ [c]
  have := h.offset
  exact ⟨by omega, iff_of_false (by simp [Gap.space]) (by omega), hline ▸ h.line, hline ▸ h.fresh⟩

lemma newline (h : g.Measures u cs at_) : Gap.newline.Measures u cs (at_.advance ['\n']) := by
  have hline : (at_.advance ['\n']).line = at_.line + 1 := Cursor.line_advance at_ ['\n']
  have hoff : (at_.advance ['\n']).offset = at_.offset + 1 := Cursor.offset_advance at_ ['\n']
  have := h.offset
  have := h.line
  exact ⟨by omega, iff_of_false (by simp [Gap.newline]) (by omega), by omega,
    iff_of_false (by simp [Gap.newline]) (by omega)⟩

lemma remark (h : g.Measures u cs at_) {text : List Char} (ht : text ≠ [])
    (hn : text.getLast? ≠ some '\n') :
    (g.remark text).Measures u (cs ++ [at_.comment text]) (at_.advance text) := by
  have hend : endOf u.endLine (cs ++ [at_.comment text]) = (at_.advance text).line :=
    (endOf_concat _ _ _).trans (lastLine_of_getLast? hn)
  have hoff : (at_.advance text).offset = at_.offset + text.length := Cursor.offset_advance at_ text
  have := h.offset
  have := List.length_pos_iff.2 ht
  exact ⟨by omega, iff_of_false (by simp [Gap.remark]) (by omega), hend.le,
    iff_of_true rfl hend.symm⟩

lemma loosen (h : g.Measures u cs at_) (hg : g.loose = true) : g.space.Measures u cs at_ := by
  have : g.space.loose = g.loose := hg.symm
  exact ⟨h.offset, by rw [this]; exact h.loose, h.line, h.fresh⟩

lemma word (g : Gap) (at_ : Cursor) {text : List Char} (hn : text.getLast? ≠ some '\n') {l : Lexeme}
    (hl : l.isSemicolon = false) :
    (g.lexeme l).Measures (at_.token text l) [] (at_.advance text) := by
  have hoff : (at_.advance text).offset = at_.offset + text.length := Cursor.offset_advance at_ text
  have hend : endOf (at_.token text l).endLine [] = (at_.advance text).line := lastLine_of_getLast? hn
  refine ⟨hoff.ge, ?_, hend.le, ?_⟩
  · simp [Gap.lexeme, hl, hoff, Cursor.token]
  · simp [Gap.lexeme, hl, hend]

lemma semicolon (h : g.Measures u cs at_) {text : List Char} (ht : text ≠ []) (hn : '\n' ∉ text)
    {l : Lexeme} (hl : l.isSemicolon = true) : (g.lexeme l).Measures u cs (at_.advance text) := by
  have hoff : (at_.advance text).offset = at_.offset + text.length := Cursor.offset_advance at_ text
  have hline : (at_.advance text).line = at_.line := by
    rw [Cursor.line_advance, List.count_eq_zero.2 hn, Nat.add_zero]
  have := h.offset
  have := List.length_pos_iff.2 ht
  refine ⟨by omega, iff_of_false (by simp [Gap.lexeme, hl]) (by omega), hline ▸ h.line, ?_⟩
  rw [Gap.lexeme, hl, Bool.true_and, hline]
  exact h.fresh

end Gap.Measures

/-! ### Reading both sides -/

structure Pace.Coherent (p : Pace) : Prop where
  source : p.source.fresh = true → p.source.broken = true
  copy : p.copy.fresh = true → p.copy.broken = true
  ahead : p.source.broken = true → p.copy.broken = true ∨ p.source.fresh = true ∧ p.copy.fresh = false
  behind : p.copy.broken = true → p.source.broken = true ∨ p.copy.fresh = true ∧ p.source.fresh = false

structure Abreast (lost : Nat → Prop) (p : Pace) (x : Twin) (cs cs' : List Comment)
    (at_ at_' : Cursor) : Prop where
  source : p.source.Measures x.source cs at_
  copy : p.copy.Measures x.copy cs' at_'
  name : (∃ name, x.source.lexeme = .ident name) →
    p.isName = true ∨ p.source.loose = true ∧ p.copy.loose = true
  notes : (∀ c ∈ cs, ¬lost c.start) → notes x.source.endLine cs = notes x.copy.endLine cs'
  coherent : p.isPending = true → p.Coherent

namespace Abreast

variable {x : Twin} {cs cs' : List Comment} {at_ at_' : Cursor} {c : Char} {text : List Char} {l : Lexeme}

lemma skip (h : Abreast lost p x cs cs' at_ at_') (hc : isBlank c = true) :
    Abreast lost { p with source := p.source.space } x cs cs' (at_.advance [c]) at_' :=
  ⟨h.source.space hc, h.copy, fun hn => (h.name hn).imp_right fun hl => ⟨rfl, hl.2⟩, h.notes,
    fun hp => ⟨(h.coherent hp).source, (h.coherent hp).copy, (h.coherent hp).ahead,
      (h.coherent hp).behind⟩⟩

lemma blank (h : Abreast lost p x cs cs' at_ at_') (hc : isBlank c = true) :
    Abreast lost { p with copy := p.copy.space } x cs cs' at_ (at_'.advance [c]) :=
  ⟨h.source, h.copy.space hc, fun hn => (h.name hn).imp_right fun hl => ⟨hl.1, rfl⟩, h.notes,
    fun hp => ⟨(h.coherent hp).source, (h.coherent hp).copy, (h.coherent hp).ahead,
      (h.coherent hp).behind⟩⟩

lemma skipLine (h : Abreast lost p x cs cs' at_ at_') :
    Abreast lost { p with source := .newline } x cs cs' (at_.advance ['\n']) at_' := by
  refine ⟨h.source.newline, h.copy, fun hn => (h.name hn).imp_right fun hl => ⟨rfl, hl.2⟩, h.notes,
    fun hp => ⟨fun _ => rfl, (h.coherent hp).copy, fun _ => ?_, fun _ => .inl rfl⟩⟩
  cases hc : p.copy.fresh with
  | true => exact .inl ((h.coherent hp).copy hc)
  | false => exact .inr ⟨rfl, rfl⟩

lemma newline (h : Abreast lost p x cs cs' at_ at_') :
    Abreast lost { p with copy := .newline, line := False } x cs cs' at_ (at_'.advance ['\n']) := by
  refine ⟨h.source, h.copy.newline, fun hn => (h.name hn).imp_right fun hl => ⟨hl.1, rfl⟩, h.notes,
    fun hp => ⟨(h.coherent hp).source, fun _ => rfl, fun _ => .inl rfl, fun _ => ?_⟩⟩
  cases hc : p.source.fresh with
  | true => exact .inl ((h.coherent hp).source hc)
  | false => exact .inr ⟨rfl, rfl⟩

lemma lose (h : Abreast lost p x cs cs' at_ at_') (ht : text ≠ []) (hn : text.getLast? ≠ some '\n')
    (ha : lost at_.offset)
    (hp : p.isPending = true → p.source.broken = false ∧ p.copy.broken = false ∧ '\n' ∉ text) :
    Abreast lost { p with source := (p.source.remark text).space } x (cs ++ [at_.comment text]) cs'
      (at_.advance text) at_' := by
  refine ⟨(h.source.remark ht hn).loosen rfl, h.copy, fun hn => (h.name hn).imp_right fun hl =>
    ⟨rfl, hl.2⟩, fun hc => absurd ha (hc (at_.comment text) (by simp)), fun hpend => ?_⟩
  obtain ⟨hs, hc, ht⟩ := hp hpend
  have hbroken : (p.source.remark text).space.broken = false := by
    simp [Gap.remark, Gap.space, hs, ht]
  exact ⟨fun hf => by simp [Gap.remark, Gap.space] at hf, (h.coherent hpend).copy,
    fun hb => by simp [hbroken] at hb, fun hb => by simp [hc] at hb⟩

lemma remark (h : Abreast lost p x cs cs' at_ at_') (ht : text ≠ [])
    (hn : text.getLast? ≠ some '\n') (hs : p.Suits) :
    Abreast lost (p.note text) x (cs ++ [at_.comment text]) (cs' ++ [at_'.comment text])
      (at_.advance text) (at_'.advance text) := by
  refine ⟨h.source.remark ht hn, h.copy.remark ht hn, fun hn => (h.name hn).imp_right fun _ =>
    ⟨rfl, rfl⟩, fun hc => ?_, fun hp => ⟨by simp [Pace.note, Gap.remark],
      by simp [Pace.note, Gap.remark], fun hb => .inl ?_, fun hb => .inl ?_⟩⟩
  · rw [notes_concat, notes_concat, h.notes fun c hm => hc c (by simp [hm])]
    -- the comment starts on the line before it on both sides or on none
    have hline : (at_.comment text).line = endOf x.source.endLine cs ↔
        (at_'.comment text).line = endOf x.copy.endLine cs' := by
      have := h.source.fresh
      rw [hs.fresh] at this
      exact this.symm.trans h.copy.fresh
    rw [decide_eq_decide.2 hline]
    rfl
  · simp only [Pace.note, Gap.remark, Bool.or_eq_true] at hb ⊢
    have := (h.coherent hp).ahead
    rw [hs.fresh] at this
    exact hb.imp_left fun hb => (this hb).resolve_right (by simp)
  · simp only [Pace.note, Gap.remark, Bool.or_eq_true] at hb ⊢
    have := (h.coherent hp).behind
    rw [hs.fresh] at this
    exact hb.imp_left fun hb => (this hb).resolve_right (by simp)

lemma word (p : Pace) (at_ at_' : Cursor) (hn : text.getLast? ≠ some '\n')
    (hl : l.isSemicolon = false) : Abreast lost (p.read l) ⟨at_.token text l, at_'.token text l⟩ [] []
      (at_.advance text) (at_'.advance text) := by
  refine ⟨.word _ at_ hn hl, .word _ at_' hn hl, fun ⟨name, hname⟩ => .inl ?_, fun _ => rfl, fun _ => ?_⟩
  · obtain rfl : l = .ident name := hname
    rfl
  · constructor <;> simp [Pace.read, Gap.lexeme, hl]

lemma semicolon (h : Abreast lost p x cs cs' at_ at_') (ht : text ≠ []) (hn : '\n' ∉ text)
    (hl : l.isSemicolon = true) :
    Abreast lost (p.read l) x cs cs' (at_.advance text) (at_'.advance text) := by
  refine ⟨h.source.semicolon ht hn hl, h.copy.semicolon ht hn hl, fun _ => .inr ?_, h.notes,
    fun hp => ?_⟩
  · simp [Pace.read, Gap.lexeme, hl]
  · cases l <;> simp_all [Lexeme.isSemicolon, Pace.isPending, Pace.read, Lexeme.endsLine]

end Abreast

def Ahead (b : Bool) (es : List Item) : Prop :=
  if b then ∃ t : Token, t.lexeme = .semicolon false ∧ es = [.token t] else es = []

lemma ahead_due (b : Bool) (at_ : Cursor) : Ahead b (Lexer.due b at_) := by
  cases b
  · rfl
  · exact ⟨at_.semicolon, rfl, rfl⟩

def Pace.Copies (lost : Nat → Prop) (p : Pace) (x : Twin) (cs cs' : List Comment)
    (its its' : List Item) : Prop :=
  ∀ es es', Ahead (p.isPending && p.source.broken && !p.copy.broken) es →
    Ahead (p.isPending && p.copy.broken && !p.source.broken) es' →
      Alike lost x cs cs' (es ++ its) (es' ++ its')

namespace Pace.Copies

variable {x : Twin} {cs cs' : List Comment} {its its' : List Item}

lemma sourceLine {g : Gap} (hg : g.broken = true)
    (h : Copies lost { p with source := g } x cs cs' its its') (at_ : Cursor) :
    Copies lost p x cs cs' (Lexer.due (p.isPending && !p.source.broken) at_ ++ its) its' := by
  intro es es' he he'
  have h' (ds : List Item) (hd : Ahead (p.isPending && !p.copy.broken) ds) :
      Alike lost x cs cs' (ds ++ its) its' :=
    h ds [] (by simpa [isPending, hg] using hd) (by simp [Ahead, hg])
  cases hp : p.isPending with
  | false =>
    simp only [hp, Bool.false_and, Ahead, Bool.false_eq_true, if_false] at he he' h'
    subst he he'
    exact h' [] rfl
  | true =>
    cases hs : p.source.broken with
    | true =>
      simp only [hp, hs, Bool.true_and, Bool.not_true, Bool.and_false, Ahead, Bool.false_eq_true,
        if_false] at he he' h'
      subst he'
      exact h' es he
    | false =>
      cases hc : p.copy.broken with
      | false =>
        simp only [hp, hs, hc, Bool.true_and, Bool.and_false, Bool.false_and, Ahead,
          Bool.false_eq_true, if_false] at he he' h'
        subst he he'
        exact h' _ (ahead_due _ at_)
      | true =>
        simp only [hp, hs, hc, Bool.true_and, Bool.and_false, Bool.not_true, Bool.not_false,
          Ahead, Bool.false_eq_true, if_false, if_true] at he he' h'
        obtain ⟨t, ht, rfl⟩ := he'
        subst he
        exact .semicolon rfl ht (h' [] rfl)

lemma copyLine {g : Gap} (hg : g.broken = true) {line : Prop}
    (h : Copies lost { p with copy := g, line := line } x cs cs' its its') (at_ : Cursor) :
    Copies lost p x cs cs' its (Lexer.due (p.isPending && !p.copy.broken) at_ ++ its') := by
  intro es es' he he'
  have h' (ds : List Item) (hd : Ahead (p.isPending && !p.source.broken) ds) :
      Alike lost x cs cs' its (ds ++ its') :=
    h [] ds (by simp [Ahead, hg]) (by simpa [isPending, hg] using hd)
  cases hp : p.isPending with
  | false =>
    simp only [hp, Bool.false_and, Ahead, Bool.false_eq_true, if_false] at he he' h'
    subst he he'
    exact h' [] rfl
  | true =>
    cases hc : p.copy.broken with
    | true =>
      simp only [hp, hc, Bool.true_and, Bool.not_true, Bool.and_false, Ahead, Bool.false_eq_true,
        if_false] at he he' h'
      subst he
      exact h' es' he'
    | false =>
      cases hs : p.source.broken with
      | false =>
        simp only [hp, hs, hc, Bool.true_and, Bool.and_false, Bool.false_and, Ahead,
          Bool.false_eq_true, if_false] at he he' h'
        subst he he'
        exact h' _ (ahead_due _ at_)
      | true =>
        simp only [hp, hs, hc, Bool.true_and, Bool.and_false, Bool.not_true, Bool.not_false,
          Ahead, Bool.false_eq_true, if_false, if_true] at he he' h'
        obtain ⟨t, ht, rfl⟩ := he
        subst he'
        exact .semicolon (by simp [Token.isSemicolon, ht]) ht.symm (h' [] rfl)

lemma iff_of_even (he : p.isPending = true → p.source.broken = p.copy.broken) :
    Copies lost p x cs cs' its its' ↔ Alike lost x cs cs' its its' := by
  have hs : (p.isPending && p.source.broken && !p.copy.broken) = false := by
    cases hp : p.isPending with
    | false => rfl
    | true => simp [he hp]
  have hc : (p.isPending && p.copy.broken && !p.source.broken) = false := by
    cases hp : p.isPending with
    | false => rfl
    | true => simp [he hp]
  constructor
  · exact fun h => h [] [] (by simp [Ahead, hs]) (by simp [Ahead, hc])
  · intro h es es' hes hes'
    simp only [Ahead, hs, hc, Bool.false_eq_true, if_false] at hes hes'
    rwa [hes, hes']

end Pace.Copies

lemma Alike.due {x : Twin} {cs cs' : List Comment} {its its' : List Item}
    (h : Alike lost x cs cs' its its') (b : Bool) (at_ at_' : Cursor) :
    Alike lost x cs cs' (Lexer.due b at_ ++ its) (Lexer.due b at_' ++ its') := by
  cases b
  · exact h
  · exact .semicolon rfl rfl h

lemma Scan.Hop.getLast?_text {text : List Char} (h : Hop src a [.remark text] m) :
    text ≠ [] ∧ text.getLast? ≠ some '\n' := by
  obtain ⟨c, x, rfl, -, hf, -⟩ := h.remark_drop
  exact ⟨List.cons_ne_nil c x, getLast?_ne_newline hf (by simp)⟩

lemma Scan.Hop.items_remark {text : List Char} (h : Hop src a [.remark text] m) {w : List Char}
    (hw : IsLine text → EndsLine w) (at_ : Cursor) (pending : Bool) :
    Lexer.items at_ pending (text ++ w) =
      (Lexer.items (at_.advance text) (Class.comment.pends pending text) w).map
        (Class.comment.items at_ pending text ++ ·) := by
  obtain ⟨c, x, rfl, -, hf, -⟩ := h.remark_drop
  refine items_of_first ?_
  rcases comment_cases hf with hb | ⟨hl, -⟩
  · exact first_of_isBlock hb w
  · exact first_of_isLine hl (hw hl)

lemma Scan.Hop.items_source {text : List Char} (h : Hop src a [.remark text] m) (at_ : Cursor)
    (pending : Bool) : Lexer.items at_ pending (src.drop a) =
      (Lexer.items (at_.advance text) (Class.comment.pends pending text) (src.drop m)).map
        (Class.comment.items at_ pending text ++ ·) := by
  obtain ⟨c, x, rfl, hd, hf, -⟩ := h.remark_drop
  rw [hd]
  exact items_of_first hf

theorem Recast.items (h : Recast src lost p a w q b) (hb : b = src.length) {x : Twin}
    {cs cs' : List Comment} {at_ at_' : Cursor} {its : List Item} (ha : at_.offset = a)
    (hx : Abreast lost p x cs cs' at_ at_')
    (hi : Lexer.items at_ (p.isPending && !p.source.broken) (src.drop a) = .ok its) :
    ∃ its', Lexer.items at_' (p.isPending && !p.copy.broken) w = .ok its' ∧
      p.Copies lost x cs cs' its its' := by
  induction h generalizing x cs cs' at_ at_' its with
  | @refl p a =>
    rw [hb, List.drop_length, Lexer.items, Except.ok.injEq] at hi
    rw [Lexer.items, ← hi, ← List.append_nil (Lexer.due _ at_)]
    refine ⟨_, congrArg _ (List.append_nil _).symm, ?_⟩
    -- both sides come to an end, which counts as the end of a line
    have hnil : Pace.Copies lost { p with source := .newline, copy := .newline } x cs cs' [] [] :=
      (Pace.Copies.iff_of_even fun _ => rfl).2 .nil
    exact Pace.Copies.sourceLine (g := .newline) rfl
      (@Pace.Copies.copyLine _ _ _ _ _ _ _ .newline rfl p.line hnil at_') at_
  | @skip p q a m b w hop h ih =>
    obtain ⟨c, rest, hc, hbl, rfl⟩ := hop.nil_inv
    have hd : src.drop (a + 1) = rest := drop_of_cons (x := []) hc
    rw [hc, ← List.singleton_append, items_blanks (by simpa using hbl), ← hd] at hi
    exact ih hb (by rw [Cursor.offset_advance, ha]; rfl) (hx.skip hbl) hi
  | @skipLine p q a m b w hop h ih =>
    obtain ⟨hd, rfl⟩ := hop.newline_drop
    rw [hd, items_newline] at hi
    obtain ⟨its, hits, rfl⟩ := Except.map_eq_ok_iff.1 hi
    obtain ⟨its', hi', hcopies⟩ := ih hb (by rw [Cursor.offset_advance, ha]; rfl) hx.skipLine
      (by simpa [Gap.newline] using hits)
    exact ⟨its', hi', hcopies.sourceLine rfl at_⟩
  | @lose p q a m b text w hop hlost hp h ih =>
    obtain ⟨hne, hlast⟩ := hop.getLast?_text
    obtain ⟨-, -, -, -, -, hlen⟩ := hop.remark_drop
    have hquiet : (if text.contains '\n' then Lexer.due (p.isPending && !p.source.broken) at_ else []) =
        [] := by
      split
      · next hn =>
        cases hpend : p.isPending with
        | false => rfl
        | true => exact absurd (by simpa using hn) (hp hpend).2.2
      · rfl
    rw [hop.items_source, Class.items, hquiet, List.nil_append] at hi
    obtain ⟨its, hits, rfl⟩ := Except.map_eq_ok_iff.1 hi
    obtain ⟨its', hi', hcopies⟩ := ih hb (by rw [Cursor.offset_advance, ha, hlen])
      (hx.lose hne hlast (ha ▸ hlost) hp)
      (by simpa [Class.pends, Gap.remark, Gap.space, Pace.isPending, Bool.and_assoc] using hits)
    refine ⟨its', hi', (Pace.Copies.iff_of_even fun hpend => ?_).2 (.lose ?_)⟩
    · rw [(hp hpend).1, (hp hpend).2.1]
    · refine (Pace.Copies.iff_of_even fun hpend => ?_).1 hcopies
      obtain ⟨hs, hc, hn⟩ := hp hpend
      simp [Gap.remark, Gap.space, hs, hc, hn]
  | @blank p q a b c w hc hl h ih =>
    rw [← List.singleton_append, items_blanks (by simpa using hc)]
    exact ih hb ha (hx.blank hc) hi
  | @newline p q a b w h ih =>
    obtain ⟨its', hi', hcopies⟩ := ih hb ha hx.newline hi
    rw [items_newline]
    refine ⟨_, Except.map_eq_ok_iff.2 ⟨its', by simpa [Gap.newline] using hi', rfl⟩, ?_⟩
    exact hcopies.copyLine rfl at_'
  | @remark p q a m b text w hop hs h ih =>
    obtain ⟨hne, hlast⟩ := hop.getLast?_text
    obtain ⟨-, -, -, -, -, hlen⟩ := hop.remark_drop
    rw [hop.items_source] at hi
    obtain ⟨its, hits, rfl⟩ := Except.map_eq_ok_iff.1 hi
    have heven (hp : p.isPending = true) : p.source.broken = p.copy.broken := by
      have := hx.coherent hp
      cases hsb : p.source.broken <;> cases hcb : p.copy.broken
      · rfl
      · simpa [hsb, hs.fresh] using this.behind hcb
      · simpa [hcb, hs.fresh] using this.ahead hsb
      · rfl
    obtain ⟨its', hi', hcopies⟩ := ih hb (by rw [Cursor.offset_advance, ha, hlen])
      (hx.remark hne hlast hs)
      (by simpa [Class.pends, Pace.note, Gap.remark, Pace.isPending, Bool.and_assoc] using hits)
    rw [hop.items_remark fun hl => h.endsLine_of_line hl]
    refine ⟨_, Except.map_eq_ok_iff.2 ⟨its', ?_, rfl⟩, (Pace.Copies.iff_of_even heven).2 ?_⟩
    · simpa [Class.pends, Pace.note, Gap.remark, Pace.isPending, Bool.and_assoc] using hi'
    · have halike := (Pace.Copies.iff_of_even fun hp => by
        simp only [Pace.note, Gap.remark, heven hp]).1 hcopies
      have hdue : Lexer.due (p.isPending && !p.source.broken) at_ =
          Lexer.due (p.isPending && !p.copy.broken) at_ := by
        cases hp : p.isPending with
        | false => rfl
        | true => rw [heven hp]
      rw [Class.items, Class.items, hdue]
      split
      · simpa using (Alike.comment halike).due _ at_ at_'
      · exact .comment halike
  | @lexeme p q a m b l w hop hf h ih =>
    obtain ⟨c, y, hcut, hd, hfirst, hlen⟩ := hop.lexeme_cut
    obtain ⟨u, v, v', hu, rfl, hv⟩ := h.agrees rfl rfl
    rw [hd, items_of_first hfirst] at hi
    obtain ⟨its, hits, rfl⟩ := Except.map_eq_ok_iff.1 hi
    have hfirst' : first c (y ++ (u ++ v')) = .ok ⟨.lexeme l, y.length⟩ :=
      first_of_stops hv (hu ▸ hfirst)
    have hnewline : (c :: y).getLast? ≠ some '\n' := getLast?_ne_newline hfirst (by simp)
    have hoffset : (at_.advance (c :: y)).offset = m := by rw [Cursor.offset_advance, ha, hlen]
    have hits' : Lexer.items (at_.advance (c :: y)) ((p.read l).isPending && !(p.read l).source.broken)
        (src.drop m) = .ok its := by
      simpa [Class.pends, Pace.read, Gap.lexeme, Pace.isPending] using hits
    have hread (its' : List Item) (h : Lexer.items (at_'.advance (c :: y))
        ((p.read l).isPending && !(p.read l).copy.broken) (u ++ v') = .ok its') :
        (Lexer.items (at_'.advance (c :: y)) ((Class.lexeme l).pends (p.isPending && !p.copy.broken)
          (c :: y)) (u ++ v')).map ((Class.lexeme l).items at_' (p.isPending && !p.copy.broken)
            (c :: y) ++ ·) = .ok (.token (at_'.token (c :: y) l) :: its') := by
      refine Except.map_eq_ok_iff.2 ⟨its', ?_, rfl⟩
      simpa [Class.pends, Pace.read, Gap.lexeme, Pace.isPending] using h
    rw [hcut, List.cons_append, items_of_first hfirst']
    cases hl : l.isSemicolon with
    | true =>
      have hnl : '\n' ∉ c :: y := fun hn => ne_newline_of_first hfirst (by simp)
        (by cases l <;> simp_all [Class.isQuoted, Lexeme.isQuoted, Lexeme.isSemicolon]) _ hn rfl
      obtain ⟨its', hi', hcopies⟩ := ih hb hoffset (hx.semicolon (List.cons_ne_nil c y) hnl hl) hits'
      refine ⟨_, hread its' hi', (Pace.Copies.iff_of_even fun hp => hf.broken hp ?_).2 ?_⟩
      · rintro rfl
        cases hl
      · refine .semicolon ?_ rfl ((Pace.Copies.iff_of_even fun _ => rfl).1 hcopies)
        cases l <;> simp_all [Lexeme.isSemicolon, Token.isSemicolon, Cursor.token]
    | false =>
      obtain ⟨its', hi', hcopies⟩ := ih hb hoffset (.word p at_ at_' hnewline hl) hits'
      refine ⟨_, hread its' hi', ?_⟩
      have halike := (Pace.Copies.iff_of_even fun _ => rfl).1 hcopies
      have hmeets : Meets lost x cs cs' (at_.token (c :: y) l) (at_'.token (c :: y) l) := by
        refine ⟨hx.notes, fun hname hsquare => ?_⟩
        have hloose : p.source.loose = p.copy.loose := by
          rcases hx.name hname with hn | ⟨hs, hc⟩
          · exact hf.loose hn hsquare
          · rw [hs, hc]
        have hs := hx.source.loose
        rw [hloose] at hs
        exact hs.symm.trans hx.copy.loose
      have hsemi : (at_.token (c :: y) l).isSemicolon = false := by
        cases l <;> simp_all [Lexeme.isSemicolon, Token.isSemicolon, Cursor.token]
      by_cases he : p.isPending = true → p.source.broken = p.copy.broken
      · exact (Pace.Copies.iff_of_even he).2 (.word hsemi rfl hmeets halike)
      · obtain ⟨hp, hne⟩ := Classical.not_imp.1 he
        have hclose : l = .closeCurly := Classical.not_not.1 fun h => hne (hf.broken hp h)
        have hsource : p.source.broken = false := by
          cases hs : p.source.broken with
          | false => rfl
          | true => exact absurd (hs.trans (hf.ended hp hs).symm) hne
        have hcopy : p.copy.broken = true := by simpa [hsource] using hne
        intro es es' hes hes'
        simp only [hsource, hcopy, hp, Ahead, Bool.and_false, Bool.false_and, Bool.false_eq_true,
          if_false, Bool.not_false, Bool.and_self, if_true] at hes hes'
        obtain ⟨e, he, rfl⟩ := hes'
        subst hes
        exact .extra he hclose rfl hmeets halike

end ParallelTests
