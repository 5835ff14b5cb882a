import Mathlib.Data.List.Nodup
import ParallelTests.Proofs.Parse.File
import ParallelTests.Proofs.Scan.Noted
import ParallelTests.Proofs.Scan.Position

/-!
The tokens and comments of a source tile it: laid out by offset they do not overlap, each has its text
and its place from the source, and only white space is left between them.
-/

namespace ParallelTests

open Scan

structure Tile where
  text : String
  start : Nat
  stop : Nat
  line : Nat
  column : Nat
  endLine : Nat
  deriving DecidableEq, Repr

def Token.tile (t : Token) : Tile := ⟨t.text, t.start, t.stop, t.line, t.column, t.endLine⟩

def Comment.tile (c : Comment) : Tile := ⟨c.text, c.start, c.stop, c.line, c.column, c.endLine⟩

def Cursor.tile (at_ : Cursor) (text : List Char) : Tile := (at_.comment text).tile

/-- The tokens that are written in a source, and its comments, by offset. -/
def TokenStream.tiles (s : TokenStream) : List Tile :=
  ((s.tokens.filter (!·.isAutomatic)).map Token.tile).merge (s.comments.map Comment.tile)
    fun t u => decide (t.start ≤ u.start)

/-- A part that is not empty and has the text, the lines and the column that the source has there. -/
structure Tile.Lies (src : Source) (t : Tile) : Prop where
  nonempty : t.start < t.stop
  inside : t.stop ≤ src.size
  text : t.text = src.slice t.start t.stop
  line : t.line = 1 + (src.chars.take t.start).count '\n'
  column : t.column = 1 + ((src.chars.take t.start).reverse.takeWhile (· ≠ '\n')).length
  endLine : t.endLine = 1 + (src.chars.take (t.stop - 1)).count '\n'

def Source.White (src : Source) (a b : Nat) : Prop :=
  ∀ o c, a ≤ o → o < b → src.chars[o]? = some c → c = '\n' ∨ isBlank c = true

inductive Tiled (src : Source) : Nat → List Tile → Prop
  | nil {a : Nat} (h : src.White a src.size) : Tiled src a []
  | cons {a : Nat} {t : Tile} {ts : List Tile} (ha : a ≤ t.start) (h : src.White a t.start)
      (ht : t.Lies src) (rest : Tiled src t.stop ts) : Tiled src a (t :: ts)

variable {src : Source} {at_ : Cursor} {a b : Nat} {text rest : List Char} {ts : List Tile}

/-! ### Cursors -/

lemma Cursor.column_advance (cs : List Char) :
    (start.advance cs).column = 1 + (cs.reverse.takeWhile (· ≠ '\n')).length := by
  induction cs using List.reverseRecOn with
  | nil => rfl
  | append_singleton cs c ih =>
    rw [advance_append, advance_cons, advance_nil, step, List.reverse_append, List.reverse_singleton,
      List.singleton_append]
    by_cases hc : c = '\n'
    · simp [hc]
    · simp [hc, ih, Nat.add_assoc]

lemma Cursor.drop_advance (h : src.chars.drop at_.offset = text ++ rest) :
    src.chars.drop (at_.advance text).offset = rest := by
  rw [offset_advance, ← List.drop_drop, h, List.drop_left]

def Cursor.Reads (src : Source) (at_ : Cursor) : Prop :=
  at_ = start.advance (src.chars.take at_.offset)

namespace Cursor.Reads

lemma line (h : at_.Reads src) : at_.line = 1 + (src.chars.take at_.offset).count '\n' := by
  conv => lhs; rw [h, line_advance]
  rfl

lemma column (h : at_.Reads src) :
    at_.column = 1 + ((src.chars.take at_.offset).reverse.takeWhile (· ≠ '\n')).length := by
  conv => lhs; rw [h, column_advance]

lemma advance (h : at_.Reads src) (hd : src.chars.drop at_.offset = text ++ rest) :
    (at_.advance text).Reads src := by
  rw [Reads, offset_advance, List.take_add, hd, List.take_left, advance_append, ← h]

lemma lies (h : at_.Reads src) (hd : src.chars.drop at_.offset = text ++ rest) (ht : text ≠ []) :
    (at_.tile text).Lies src := by
  have hlen := congrArg List.length hd
  have hpos := List.length_pos_iff.2 ht
  rw [List.length_drop, List.length_append] at hlen
  refine ⟨?_, ?_, ?_, h.line, h.column, ?_⟩
  · show at_.offset < at_.offset + text.length
    omega
  · show at_.offset + text.length ≤ src.chars.length
    omega
  · show String.ofList text = src.slice at_.offset (at_.offset + text.length)
    rw [Source.slice, Nat.add_sub_cancel_left, hd, List.take_left]
  · -- the last character is read from where everything before it has been read
    have hlast : src.chars.drop at_.offset = text.dropLast ++ ([text.getLast ht] ++ rest) := by
      rw [← List.append_assoc, List.dropLast_append_getLast, hd]
    have := (h.advance hlast).line
    rwa [offset_advance, List.length_dropLast, ← Nat.add_sub_assoc hpos] at this

end Cursor.Reads

lemma lexeme_of_first {c : Char} {cs : List Char} {l : Lexeme} {more : Nat}
    (hf : first c cs = .ok ⟨.lexeme l, more⟩) :
    l.text = String.ofList (c :: cs.take more) ∧ l ≠ .semicolon false := by
  have hlen := List.length_take_of_le (first_more_le hf)
  have hf' : first c (cs.take more ++ cs.drop more) = .ok ⟨.lexeme l, (cs.take more).length⟩ := by
    rwa [List.take_append_drop, hlen]
  obtain ⟨hop, -⟩ := hop_of_first (show (c :: cs).drop 0 = c :: cs from rfl) hf
  exact ⟨text_of_first hf', (hop (by simp)).not_automatic⟩

lemma Token.tile_eq {l : Lexeme} (h : l.text = String.ofList text) :
    (at_.token text l).tile = at_.tile text := by
  simp [tile, Cursor.tile, Comment.tile, Cursor.token, Cursor.comment, Token.text, h]

/-! ### Reading -/

lemma Source.White.append {m : Nat} (h : src.White a m) (h' : src.White m b) : src.White a b := by
  intro o c ha hb hc
  rcases Nat.lt_or_ge o m with hm | hm
  · exact h o c ha hm hc
  · exact h' o c hm hb hc

lemma Source.white_of_drop (hd : src.chars.drop a = text ++ rest)
    (ht : ∀ c ∈ text, c = '\n' ∨ isBlank c = true) : src.White a (a + text.length) := by
  intro o c ha hb hc
  obtain ⟨i, rfl⟩ := Nat.exists_eq_add_of_le ha
  rw [← List.getElem?_drop, hd, List.getElem?_append_left (Nat.lt_of_add_lt_add_left hb)] at hc
  exact ht c (List.mem_of_getElem? hc)

lemma Tiled.prepend (ha : a ≤ b) (h : src.White a b) (hs : Tiled src b ts) : Tiled src a ts := by
  cases hs with
  | nil h' => exact .nil (h.append h')
  | cons hb h' ht rest => exact .cons (Nat.le_trans ha hb) (h.append h') ht rest

def Item.tile? : ParallelTests.Item → Option Tile
  | .token t => if t.isAutomatic then none else some t.tile
  | .comment c => some c.tile

lemma tiles_due (pending : Bool) (at_ : Cursor) :
    (Lexer.due pending at_).filterMap Item.tile? = [] := by
  cases pending <;> rfl

lemma Tiled.space (hd : src.chars.drop at_.offset = text ++ rest)
    (ht : ∀ c ∈ text, c = '\n' ∨ isBlank c = true) (hs : Tiled src (at_.advance text).offset ts) :
    Tiled src at_.offset ts := by
  rw [Cursor.offset_advance] at hs
  exact .prepend (Nat.le_add_right ..) (src.white_of_drop hd ht) hs

lemma Tiled.part (hr : at_.Reads src) (hd : src.chars.drop at_.offset = text ++ rest)
    (ht : text ≠ []) (hs : Tiled src (at_.advance text).offset ts) :
    Tiled src at_.offset (at_.tile text :: ts) := by
  rw [Cursor.offset_advance] at hs
  exact .cons (Nat.le_refl _) (fun o c ha hb => absurd hb (Nat.not_lt.2 ha)) (hr.lies hd ht) hs

lemma tiled_of_items {cs : List Char} {pending : Bool} {its : List ParallelTests.Item}
    (h : Lexer.items at_ pending cs = .ok its) (hc : src.chars.drop at_.offset = cs)
    (hr : at_.Reads src) : Tiled src at_.offset (its.filterMap Item.tile?) := by
  induction at_, pending, cs using Lexer.items.induct generalizing its with
  | case1 at_ pending =>
    rw [Lexer.items, Except.ok.injEq] at h
    rw [← h, tiles_due]
    have hle := List.drop_eq_nil_iff.1 hc
    exact .nil fun o c ha hb => absurd hb (Nat.not_lt.2 (Nat.le_trans hle ha))
  | case2 at_ pending c cs cause he => simp [Lexer.items, he] at h
  | case3 at_ pending c cs more text next hf =>
    rename_i ih
    have hd : src.chars.drop at_.offset = text ++ cs.drop more := by simpa [text] using hc
    simp only [Lexer.items, hf] at h
    obtain ⟨its, hi, rfl⟩ := Except.map_eq_ok_iff.1 h
    rw [List.filterMap_append, tiles_due, List.nil_append]
    refine .space hd (fun d hm => .inl ?_) (ih hi (Cursor.drop_advance hd) (hr.advance hd))
    obtain ⟨rfl, rfl⟩ := eq_newline_of_first hf
    simpa [text] using hm
  | case4 at_ pending c cs more text next hf =>
    rename_i ih
    have hd : src.chars.drop at_.offset = text ++ cs.drop more := by simpa [text] using hc
    simp only [Lexer.items, hf] at h
    exact .space hd (fun d hm => .inr (isBlank_of_first hf d hm))
      (ih h (Cursor.drop_advance hd) (hr.advance hd))
  | case5 at_ pending c cs more text next ended hf =>
    rename_i ih
    have hd : src.chars.drop at_.offset = text ++ cs.drop more := by simpa [text] using hc
    simp only [Lexer.items, hf] at h
    obtain ⟨its, hi, rfl⟩ := Except.map_eq_ok_iff.1 h
    have hhere : (if ended then Lexer.due pending at_ else []).filterMap Item.tile? = [] := by
      cases ended
      · rfl
      · exact tiles_due _ _
    rw [List.filterMap_append, hhere, List.nil_append,
      List.filterMap_cons_some (f := Item.tile?) rfl]
    exact .part hr hd (by simp) (ih hi (Cursor.drop_advance hd) (hr.advance hd))
  | case6 at_ pending c cs more text next l hf =>
    rename_i ih
    have hd : src.chars.drop at_.offset = text ++ cs.drop more := by simpa [text] using hc
    simp only [Lexer.items, hf] at h
    obtain ⟨its, hi, rfl⟩ := Except.map_eq_ok_iff.1 h
    have htile : Item.tile? (.token (at_.token text l)) = some (at_.tile text) := by
      obtain ⟨hl, ha⟩ := lexeme_of_first hf
      rw [Item.tile?, Token.tile_eq hl, if_neg]
      simp [Token.isAutomatic, Cursor.token, ha]
    rw [List.filterMap_cons_some htile]
    exact .part hr hd (by simp [text]) (ih hi (Cursor.drop_advance hd) (hr.advance hd))

/-! ### Tiles by offset -/

lemma Tiled.mem (h : Tiled src a ts) {t : Tile} (ht : t ∈ ts) : a ≤ t.start ∧ t.Lies src := by
  induction h with
  | nil => simp at ht
  | cons ha _ hl _ ih =>
    rcases List.mem_cons.1 ht with rfl | ht
    · exact ⟨ha, hl⟩
    · obtain ⟨hle, hl'⟩ := ih ht
      have := hl.nonempty
      exact ⟨by omega, hl'⟩

lemma Tiled.pairwise (h : Tiled src a ts) :
    ts.Pairwise fun t u => t.start < u.start ∧ t.stop ≤ u.start := by
  induction h with
  | nil => exact .nil
  | cons _ _ ht rest ih =>
    exact .cons (fun u hu => ⟨Nat.lt_of_lt_of_le ht.nonempty (rest.mem hu).1, (rest.mem hu).1⟩) ih

lemma Tiled.white (h : Tiled src a ts) {o : Nat} {c : Char} (ha : a ≤ o)
    (hc : src.chars[o]? = some c) (ho : ∀ t ∈ ts, ¬(t.start ≤ o ∧ o < t.stop)) :
    c = '\n' ∨ isBlank c = true := by
  induction h with
  | nil h => exact h o c ha (List.getElem?_eq_some_iff.1 hc).1 hc
  | @cons a t ts _ h _ _ ih =>
    rcases Nat.lt_or_ge o t.start with hlt | hge
    · exact h o c ha hlt hc
    · have hout := ho t (by simp)
      exact ih (by omega) fun u hu => ho u (by simp [hu])

lemma tiles_split (its : List ParallelTests.Item) :
    let tokens := ((its.filterMap Item.token?).filter (!·.isAutomatic)).map Token.tile
    let comments := (its.filterMap Item.comment?).map Comment.tile
    (tokens ++ comments).Perm (its.filterMap Item.tile?) ∧
      tokens.Sublist (its.filterMap Item.tile?) ∧ comments.Sublist (its.filterMap Item.tile?) := by
  induction its with
  | nil => exact ⟨.refl _, .refl _, .refl _⟩
  | cons i its ih =>
    obtain ⟨hperm, htokens, hcomments⟩ := ih
    cases i with
    | token t =>
      cases ha : t.isAutomatic with
      | true => simpa [Item.token?, Item.comment?, Item.tile?, ha] using ⟨hperm, htokens, hcomments⟩
      | false =>
        simpa [Item.token?, Item.comment?, Item.tile?, ha] using
          ⟨hperm, htokens, hcomments.cons t.tile⟩
    | comment c =>
      simpa [Item.token?, Item.comment?, Item.tile?] using
        ⟨List.perm_middle.trans (hperm.cons c.tile), htokens.cons c.tile, hcomments⟩

lemma TokenStream.tiles_eq {s : TokenStream} {its : List ParallelTests.Item}
    (htokens : s.tokens = its.filterMap Item.token?)
    (hcomments : s.comments = its.filterMap Item.comment?)
    (h : Tiled src a (its.filterMap Item.tile?)) : s.tiles = its.filterMap Item.tile? := by
  obtain ⟨hperm, ht, hc⟩ := tiles_split its
  rw [← htokens, ← hcomments] at hperm
  rw [← htokens] at ht
  rw [← hcomments] at hc
  have hsorted : ∀ ts : List Tile, ts.Sublist (its.filterMap Item.tile?) →
      ts.Pairwise fun t u => decide (t.start ≤ u.start) = true :=
    fun ts hts => (h.pairwise.sublist hts).imp fun htu => decide_eq_true (Nat.le_of_lt htu.1)
  have hmerge : s.tiles.Pairwise fun t u => decide (t.start ≤ u.start) = true := by
    refine List.pairwise_merge (fun t u v => ?_) (fun t u => ?_) _ _ (hsorted _ ht) (hsorted _ hc)
    · simpa using Nat.le_trans
    · simpa using Nat.le_total t.start u.start
  have hperm : s.tiles.Perm (its.filterMap Item.tile?) :=
    (List.merge_perm_append ..).trans hperm
  have hnodup : ((its.filterMap Item.tile?).map Tile.start).Nodup :=
    List.pairwise_map.2 (h.pairwise.imp fun htu => Nat.ne_of_lt htu.1)
  refine hperm.eq_of_pairwise (fun t u ht hu htu hut => ?_) hmerge (hsorted _ (.refl _))
  exact List.inj_on_of_nodup_map hnodup (hperm.mem_iff.1 ht) hu
    (Nat.le_antisymm (of_decide_eq_true htu) (of_decide_eq_true hut))

lemma Tile.Lies.place {t : Tile} (h : t.Lies src) :
    t.line = src.lineOf t.start ∧ t.column = src.columnOf t.start := by
  have hle : t.start ≤ src.size := Nat.le_trans (Nat.le_of_lt h.nonempty) h.inside
  refine ⟨h.line.trans (src.lineOf_eq hle).symm, ?_⟩
  rw [src.columnOf_eq hle, h.column]
  simp

/-- The written tokens and the comments of a source are parts of it that do not overlap, and every
other character is white space. The tokens, automatic semicolons among them, come by offset. -/
theorem TokenStream.tiles_of_ofSource (src : Source) (s : TokenStream)
    (h : TokenStream.ofSource src = .ok s) :
    (∀ t ∈ s.tiles, t.Lies src) ∧
    s.tiles.Pairwise (fun t u => t.start < u.start ∧ t.stop ≤ u.start) ∧
    (∀ o c, src.chars[o]? = some c → (∀ t ∈ s.tiles, ¬(t.start ≤ o ∧ o < t.stop)) →
      c = '\n' ∨ isBlank c = true) ∧
    s.tokens.Pairwise fun t u => t.start ≤ u.start := by
  obtain ⟨its, hits, -, htokens, hcomments, -⟩ := TokenStream.of_ofSource h
  have htiled : Tiled src 0 (its.filterMap Item.tile?) := tiled_of_items hits rfl rfl
  rw [TokenStream.tiles_eq htokens hcomments htiled]
  refine ⟨fun t ht => (htiled.mem ht).2, htiled.pairwise,
    fun o c hc ho => htiled.white (Nat.zero_le o) hc ho, ?_⟩
  have hstrung := TokenStream.strung h
  refine (hstrung.pairwise sync_zero).imp_of_mem fun ht _ htu => ?_
  exact Nat.le_trans (hstrung.mem sync_zero ht).2.2.2 htu

def tiledSource : Source := .ofString "a.go" "package p /* a\nb */ var x = 1 // c\n"

set_option maxRecDepth 100000 in
theorem TokenStream.tiles_of_ofSource_tiledSource :
    ∃ s, TokenStream.ofSource tiledSource = .ok s ∧
      s.comments.map (fun c => (c.text, c.start, c.line, c.endLine)) =
        [("/* a\nb */", 10, 1, 2), ("// c", 30, 2, 2)] ∧
      s.tokens.map (fun t => (t.text, t.start, t.line, t.column)) =
        [("package", 0, 1, 1), ("p", 8, 1, 9), ("", 10, 1, 11), ("var", 20, 2, 6), ("x", 24, 2, 10),
          ("=", 26, 2, 12), ("1", 28, 2, 14), ("", 34, 2, 20)] ∧
      (∀ t ∈ s.tiles, t.Lies tiledSource) ∧
      s.tiles.Pairwise (fun t u => t.start < u.start ∧ t.stop ≤ u.start) ∧
      s.tokens.Pairwise fun t u => t.start ≤ u.start := by
  have h : (TokenStream.ofSource tiledSource).toOption.any (fun s =>
      s.comments.map (fun c => (c.text, c.start, c.line, c.endLine)) =
          [("/* a\nb */", 10, 1, 2), ("// c", 30, 2, 2)] ∧
        s.tokens.map (fun t => (t.text, t.start, t.line, t.column)) =
          [("package", 0, 1, 1), ("p", 8, 1, 9), ("", 10, 1, 11), ("var", 20, 2, 6), ("x", 24, 2, 10),
            ("=", 26, 2, 12), ("1", 28, 2, 14), ("", 34, 2, 20)]) = true := by decide +kernel
  obtain ⟨s, hs, hitems⟩ := (Option.any_eq_true _ _).1 h
  obtain ⟨hcomments, htokens⟩ := of_decide_eq_true hitems
  have hs := Except.toOption_eq_some.1 hs
  obtain ⟨hlies, hbehind, -, hpairwise⟩ := TokenStream.tiles_of_ofSource tiledSource s hs
  exact ⟨s, hs, hcomments, htokens, hlies, hbehind, hpairwise⟩

end ParallelTests
