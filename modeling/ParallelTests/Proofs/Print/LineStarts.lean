import ParallelTests.Proofs.Print.Written
import ParallelTests.Proofs.Scan.Strung

/-!
Moving lines changes a text at the starts of lines only: behind a newline that no comment and no
literal holds. So the tokens and the comments of the text stay what they are.
-/

namespace ParallelTests

def Lexeme.isQuoted : Lexeme → Bool
  | rune _ | string _ => true
  | _ => false

namespace Item

def Holds (i : Nat) : Item → Prop
  | token t => t.lexeme.isQuoted = true ∧ t.start ≤ i ∧ i < t.stop
  | comment c => c.start ≤ i ∧ i < c.stop

instance (i : Nat) : DecidablePred (Holds i)
  | token _ | comment _ => inferInstanceAs (Decidable (_ ∧ _))

def content : Item → Lexeme ⊕ String
  | token t => .inl t.lexeme
  | comment c => .inr c.text

end Item

namespace Scan

def Class.items (at_ : Cursor) (pending : Bool) (text : List Char) :
    Class → List ParallelTests.Item
  | .newline => Lexer.due pending at_
  | .blank => []
  | .comment => (if text.contains '\n' then Lexer.due pending at_ else []) ++
      [.comment (at_.comment text)]
  | .lexeme l => [.token (at_.token text l)]

def Class.pends (pending : Bool) (text : List Char) : Class → Bool
  | .newline => false
  | .blank => pending
  | .comment => pending && !text.contains '\n'
  | .lexeme l => l.endsLine

def Class.isQuoted : Class → Bool
  | .comment => true
  | .lexeme l => l.isQuoted
  | _ => false

variable {at_ at_' : Cursor} {pending : Bool} {c : Char} {x y cs bs old new : List Char} {k : Class}
  {its : List ParallelTests.Item} {i : Nat}

lemma length_lt_cons_append (c : Char) (x y : List Char) : y.length < (c :: (x ++ y)).length := by
  rw [List.length_cons, List.length_append]
  omega

lemma items_of_first (h : first c (x ++ y) = .ok ⟨k, x.length⟩) :
    Lexer.items at_ pending (c :: (x ++ y)) =
      (Lexer.items (at_.advance (c :: x)) (k.pends pending (c :: x)) y).map
        (k.items at_ pending (c :: x) ++ ·) := by
  rw [Lexer.items]
  cases k with
  | blank =>
    simp only [h, List.take_left, List.drop_left, Class.pends, Class.items, List.nil_append]
    cases Lexer.items (at_.advance (c :: x)) pending y <;> rfl
  | _ => simp [h, Class.pends, Class.items]

lemma items_inv (h : Lexer.items at_ pending (c :: cs) = .ok its) :
    ∃ x y k rest, cs = x ++ y ∧ first c (x ++ y) = .ok ⟨k, x.length⟩ ∧
      Lexer.items (at_.advance (c :: x)) (k.pends pending (c :: x)) y = .ok rest ∧
      its = k.items at_ pending (c :: x) ++ rest := by
  cases hf : first c cs with
  | error cause =>
    rw [Lexer.items, hf] at h
    cases h
  | ok item =>
    obtain ⟨k, more⟩ := item
    have hmore : (cs.take more).length = more := List.length_take_of_le (first_more_le hf)
    have hcs : cs = cs.take more ++ cs.drop more := (List.take_append_drop more cs).symm
    have hf' : first c (cs.take more ++ cs.drop more) = .ok ⟨k, (cs.take more).length⟩ := by
      rw [← hcs, hf, hmore]
    rw [hcs, items_of_first hf'] at h
    obtain ⟨rest, hrest, rfl⟩ := Except.map_eq_ok_iff.1 h
    exact ⟨_, _, k, rest, hcs, hf', hrest, rfl⟩

lemma items_newline (cs : List Char) :
    Lexer.items at_ pending ('\n' :: cs) =
      (Lexer.items (at_.advance ['\n']) false cs).map (Lexer.due pending at_ ++ ·) :=
  items_of_first (x := []) (k := .newline) rfl

lemma items_run (cs : List Char) :
    Lexer.items at_ pending cs =
      Lexer.items (at_.advance (cs.takeWhile isBlank)) pending (cs.dropWhile isBlank) := by
  cases cs with
  | nil => rfl
  | cons c cs =>
    cases hc : isBlank c with
    | false => simp [hc]
    | true =>
      have hx : (cs.takeWhile isBlank).length = runLength isBlank cs := rfl
      have hf : first c (cs.takeWhile isBlank ++ cs.dropWhile isBlank) =
          .ok ⟨.blank, (cs.takeWhile isBlank).length⟩ := by
        rw [List.takeWhile_append_dropWhile, hx, first_blank hc]
      rw [List.takeWhile_cons_of_pos hc, List.dropWhile_cons_of_pos hc]
      have h : Lexer.items at_ pending (c :: (cs.takeWhile isBlank ++ cs.dropWhile isBlank)) = _ :=
        items_of_first hf
      rw [List.takeWhile_append_dropWhile] at h
      rw [h]
      exact congrFun Except.map_id _

lemma items_blanks (hb : ∀ c ∈ bs, isBlank c = true) (cs : List Char) :
    Lexer.items at_ pending (bs ++ cs) = Lexer.items (at_.advance bs) pending cs := by
  induction bs generalizing at_ with
  | nil => rfl
  | cons c bs ih =>
    have hc := hb c (by simp)
    rw [Cursor.advance_cons, ← ih fun d hd => hb d (by simp [hd]), List.cons_append,
      items_run (c :: _), items_run (bs ++ cs), List.takeWhile_cons_of_pos hc,
      List.dropWhile_cons_of_pos hc, Cursor.advance_cons]

lemma contents_items (k : Class) (at_ at_' : Cursor) (pending : Bool) (text : List Char) :
    (k.items at_ pending text).map Item.content = (k.items at_' pending text).map Item.content := by
  have hdue : (Lexer.due pending at_).map Item.content = (Lexer.due pending at_').map Item.content := by
    cases pending <;> rfl
  cases k with
  | newline => exact hdue
  | blank | lexeme => rfl
  | comment =>
    simp only [Class.items, List.map_append]
    split
    · rw [hdue]
      rfl
    · rfl

lemma holds_items (k : Class) (at_ : Cursor) (pending : Bool) (text : List Char) (i : Nat) :
    (∃ it ∈ k.items at_ pending text, it.Holds i) ↔
      k.isQuoted = true ∧ at_.offset ≤ i ∧ i < at_.offset + text.length := by
  have hdue : ∀ it ∈ Lexer.due pending at_, ¬it.Holds i := by
    intro it hit
    cases pending with
    | false => cases hit
    | true =>
      obtain rfl := List.mem_singleton.1 hit
      exact fun h => Bool.false_ne_true h.1
  cases k with
  | newline =>
    constructor
    · rintro ⟨it, hit, h⟩
      exact absurd h (hdue it hit)
    · exact fun h => absurd h.1 Bool.false_ne_true
  | blank => simp [Class.items, Class.isQuoted]
  | lexeme l => simp [Class.items, Class.isQuoted, Item.Holds, Cursor.token]
  | comment =>
    have hself : (Item.comment (at_.comment text)).Holds i ↔
        at_.offset ≤ i ∧ i < at_.offset + text.length := Iff.rfl
    simp only [Class.items, Class.isQuoted, true_and, ← hself]
    constructor
    · rintro ⟨it, hit, h⟩
      rcases List.mem_append.1 hit with hit | hit
      · split at hit
        · exact absurd h (hdue it hit)
        · cases hit
      · obtain rfl := List.mem_singleton.1 hit
        exact h
    · exact fun h => ⟨_, by simp, h⟩

lemma offset_le_of_holds (h : Lexer.items at_ pending cs = .ok its)
    (hi : ∃ it ∈ its, it.Holds i) : at_.offset ≤ i := by
  induction hn : cs.length using Nat.strongRecOn generalizing at_ pending cs its with
  | ind n ih =>
    subst hn
    cases cs with
    | nil =>
      rw [Lexer.items, Except.ok.injEq] at h
      subst h
      have := (holds_items .newline at_ pending [] i).1 hi
      exact absurd this.1 Bool.false_ne_true
    | cons c cs =>
      obtain ⟨x, y, k, rest, rfl, -, hrest, rfl⟩ := items_inv h
      obtain ⟨it, hit, hhold⟩ := hi
      rcases List.mem_append.1 hit with hit | hit
      · exact ((holds_items k at_ pending (c :: x) i).1 ⟨it, hit, hhold⟩).2.1
      · have := ih y.length (length_lt_cons_append _ _ _) hrest ⟨it, hit, hhold⟩ rfl
        rw [Cursor.offset_advance] at this
        omega

lemma ne_newline_of_first (h : first c (x ++ y) = .ok ⟨k, x.length⟩) (hk : k ≠ .newline)
    (hq : k.isQuoted = false) : ∀ d ∈ c :: x, d ≠ '\n' := by
  have plain (hc : ∀ d ∈ c :: x, isPlain d = true) : ∀ d ∈ c :: x, d ≠ '\n' := by
    rintro d hd rfl
    exact Bool.false_ne_true (hc _ hd)
  obtain ⟨n, hn⟩ : ∃ n, n = x.length := ⟨_, rfl⟩
  rw [← hn] at h
  have hx : (x ++ y).take n = x := by rw [hn, List.take_left]
  cases first_found h with
  | newline => exact absurd rfl hk
  | blank =>
    refine plain fun d hd => isPlain_of_isBlank (isBlank_of_first h d ?_)
    rwa [hx]
  | line | block => cases hq
  | number hc =>
    have ht := (taken_numberLength c (x ++ y)).2
    rw [hx] at ht
    exact plain (List.forall_mem_cons.2 ⟨hc, ht⟩)
  | word hc =>
    simp only [Text.isWordStart, Bool.and_eq_true] at hc
    exact plain (List.forall_mem_cons.2 ⟨Rebase.isPlain_of_isWord hc.1, fun d hd =>
      Rebase.isPlain_of_isWord ((runLength_append_iff.1 hn).1 d hd)⟩)
  | literal hm => rcases hm with rfl | rfl <;> cases hq
  | raw => cases hq
  | semicolon hc =>
    obtain rfl : x = [] := List.length_eq_zero_iff.1 hn.symm
    exact plain (by simp [hc, isPlain, Rebase.isQuote])
  | operator ho =>
    have ho' := chars_of_ofHead? ho hn
    intro d hd
    exact ((Rebase.operator_chars _).2 d (ho' ▸ hd)).1

end Scan

namespace Rebase

open Scan

variable {at_ at_' : Cursor} {pending : Bool} {c : Char} {x y cs text old new : List Char} {k : Scan.Class}
  {its all : List ParallelTests.Item} {a i : Nat}

lemma lines_step (old new : List Char) (quote : Option Char) (c : Char) (cs : List Char) :
    (∃ x y mark, cs = x ++ y ∧ lines old new quote (c :: cs) = c :: (x ++ lines old new mark y)) ∨
      c = '\n' ∧ ∃ w, lines old new quote (c :: cs) = '\n' :: w := by
  have copied (n : Nat) (mark : Option Char) : ∃ x y mark', cs = x ++ y ∧
      c :: (cs.take n ++ lines old new mark (cs.drop n)) = c :: (x ++ lines old new mark' y) :=
    ⟨_, _, mark, (List.take_append_drop n cs).symm, rfl⟩
  cases quote with
  | some mark =>
    left
    rw [lines.eq_3]
    split_ifs
    exacts [copied 1 _, copied 0 _, copied 0 _]
  | none =>
    rw [lines.eq_2]
    split_ifs with _ _ _ hmove
    · exact .inl (copied _ _)
    · exact .inl (copied _ _)
    · exact .inl (copied 0 _)
    · simp only [Bool.and_eq_true, decide_eq_true_eq] at hmove
      obtain rfl := hmove.1.1
      exact .inr ⟨rfl, _, rfl⟩
    · exact .inl (copied 0 _)

lemma head?_lines (quote : Option Char) (cs : List Char) :
    (lines old new quote cs).head? = cs.head? := by
  cases cs with
  | nil => rw [lines]
  | cons c cs =>
    rcases lines_step _ _ quote c cs with ⟨x, y, mark, -, h⟩ | ⟨rfl, w, h⟩ <;> rw [h] <;> rfl

lemma lines_agrees (old new : List Char) (quote : Option Char) (cs : List Char) :
    ∃ u v w, cs = u ++ v ∧ lines old new quote cs = u ++ w ∧ EndsLine w := by
  induction hn : cs.length using Nat.strongRecOn generalizing quote cs with
  | ind n ih =>
    subst hn
    cases cs with
    | nil => exact ⟨[], [], [], rfl, by rw [lines]; rfl, endsLine_nil⟩
    | cons c cs =>
      rcases lines_step old new quote c cs with ⟨x, y, mark, rfl, h⟩ | ⟨rfl, w, h⟩
      · obtain ⟨u, v, w, rfl, hw, he⟩ := ih y.length (length_lt_cons_append _ _ _) mark y rfl
        exact ⟨c :: (x ++ u), v, w, by simp, by simp [h, hw], he⟩
      · exact ⟨[], _, _, rfl, h, endsLine_newline w⟩

lemma first_lines (h : first c (x ++ y) = .ok ⟨k, x.length⟩) :
    first c (x ++ lines old new none y) = .ok ⟨k, x.length⟩ := by
  have hhead : (lines old new none y).head? = y.head? := head?_lines none y
  cases k with
  | newline =>
    obtain ⟨rfl, hx⟩ := eq_newline_of_first h
    rw [hx]
    rfl
  | blank =>
    have hb := isBlank_of_first h c (by simp)
    rw [first_blank hb] at h ⊢
    simp only [Except.ok.injEq, Item.mk.injEq, true_and] at h ⊢
    rw [runLength_append_iff] at h ⊢
    rwa [hhead]
  | comment =>
    rcases comment_cases h with hb | ⟨hl, hy⟩
    · exact first_of_isBlock hb _
    · refine first_of_isLine hl ?_
      rwa [EndsLine, hhead]
  | lexeme l =>
    obtain ⟨u, v, w, rfl, hw, he⟩ := lines_agrees old new none y
    rw [hw]
    exact first_of_stops (stops_of_endsLine he) h

lemma lines_item (h : first c (x ++ y) = .ok ⟨k, x.length⟩) (hk : k ≠ .newline) :
    lines old new none (c :: (x ++ y)) = c :: (x ++ lines old new none y) := by
  cases k with
  | newline => exact absurd rfl hk
  | blank =>
    have hb := isBlank_of_first h
    rw [List.take_left] at hb
    exact lines_plain (x := c :: x) (fun d hd => isPlain_of_isBlank (hb d hd)) y
  | comment =>
    rcases comment_cases h with hb | ⟨hl, hy⟩
    · exact lines_block hb y
    · exact lines_line hl hy
  | lexeme l => exact lines_lexeme h

lemma lines_break (hold : ∀ c ∈ old, isBlank c = true) (hnew : ∀ c ∈ new, isBlank c = true)
    (cs : List Char) : ∃ bs bs' t, cs = bs ++ t ∧ (∀ c ∈ bs, isBlank c = true) ∧
      (∀ c ∈ bs', isBlank c = true) ∧
      lines old new none ('\n' :: cs) = '\n' :: (bs' ++ lines old new none t) := by
  rw [lines_newline]
  split
  · next hp =>
    obtain ⟨t, rfl⟩ := List.isPrefixOf_iff_prefix.1 (Bool.and_eq_true_iff.1 hp).2
    exact ⟨old, new, t, rfl, hold, hnew, by rw [List.drop_left]⟩
  · exact ⟨[], [], cs, rfl, List.forall_mem_nil _, List.forall_mem_nil _, rfl⟩

lemma items_lines (hold : ∀ c ∈ old, isBlank c = true) (hnew : ∀ c ∈ new, isBlank c = true)
    (h : Lexer.items at_ pending cs = .ok its) (at_' : Cursor) :
    ∃ its', Lexer.items at_' pending (lines old new none cs) = .ok its' ∧
      its'.map Item.content = its.map Item.content := by
  induction hn : cs.length using Nat.strongRecOn generalizing at_ at_' pending cs its with
  | ind n ih =>
    subst hn
    cases cs with
    | nil =>
      rw [Lexer.items, Except.ok.injEq] at h
      subst h
      rw [lines, Lexer.items]
      exact ⟨_, rfl, contents_items .newline at_' at_ pending []⟩
    | cons c cs =>
      obtain ⟨x, y, k, rest, rfl, hf, hrest, rfl⟩ := items_inv h
      by_cases hk : k = .newline
      · subst hk
        obtain ⟨rfl, hx⟩ := eq_newline_of_first hf
        obtain rfl := List.length_eq_zero_iff.1 hx
        obtain ⟨bs, bs', t, rfl, hb, hb', hlines⟩ := lines_break hold hnew y
        rw [items_blanks hb] at hrest
        obtain ⟨its', hits, hcontent⟩ :=
          ih t.length (length_lt_cons_append _ _ _) hrest ((at_'.advance ['\n']).advance bs') rfl
        rw [← items_blanks hb'] at hits
        rw [List.nil_append, hlines, items_newline]
        refine ⟨_, Except.map_eq_ok_iff.2 ⟨its', hits, rfl⟩, ?_⟩
        rw [List.map_append, List.map_append, hcontent]
        exact congrArg (· ++ _) (contents_items .newline at_' at_ pending [])
      · rw [lines_item hf hk, items_of_first (first_lines hf)]
        obtain ⟨its', hits, hcontent⟩ := ih y.length (length_lt_cons_append _ _ _) hrest (at_'.advance (c :: x)) rfl
        refine ⟨_, Except.map_eq_ok_iff.2 ⟨its', hits, rfl⟩, ?_⟩
        rw [List.map_append, List.map_append, hcontent, contents_items]

/-- A newline outside all comments and literals, with the indentation behind it on a line that is not
empty. -/
def Moves (its : List ParallelTests.Item) (text old : List Char) (i : Nat) : Prop :=
  text[i]? = some '\n' ∧ (∀ it ∈ its, ¬it.Holds i) ∧ text[i + 1]?.any (· ≠ '\n') = true ∧
    old <+: text.drop (i + 1)

instance : DecidablePred (Moves its text old) :=
  fun _ => inferInstanceAs (Decidable (_ ∧ _))

/-- What stands in place of the character at an offset once the lines are moved: behind a newline that
moves a line, the new indentation for the old one. -/
def moved (its : List ParallelTests.Item) (text old new : List Char) (i : Nat) : List Char :=
  if Moves its text old i then '\n' :: new
  else if ∃ j < i, Moves its text old j ∧ i ≤ j + old.length then []
  else text[i]?.toList

def Past (its : List ParallelTests.Item) (text old : List Char) (a : Nat) : Prop :=
  ∀ j < a, Moves its text old j → j + old.length < a

lemma getElem?_of_drop (hc : text.drop a = x ++ y) (ha : a ≤ i) (hi : i < a + x.length) :
    text[i]? = x[i - a]? := by
  have hlt : i - a < x.length := by omega
  calc text[i]?
    _ = (text.drop a)[i - a]? := by rw [List.getElem?_drop, Nat.add_sub_cancel' ha]
    _ = (x ++ y)[i - a]? := by rw [hc]
    _ = x[i - a]? := List.getElem?_append_left hlt

lemma past_of_stays (hp : Past all text old a) {b : Nat} (hab : a ≤ b)
    (hn : ∀ j, a ≤ j → j < b → ¬Moves all text old j) : Past all text old b := by
  intro j hj hm
  by_cases hja : j < a
  · exact (hp j hja hm).trans_le hab
  · exact absurd hm (hn j (Nat.not_lt.1 hja) hj)

lemma moved_of_stays (hp : Past all text old a) (hn : ¬Moves all text old a) :
    moved all text old new a = text[a]?.toList := by
  rw [moved, if_neg hn, if_neg]
  rintro ⟨j, hj, hm, hle⟩
  exact absurd (hp j hj hm) (Nat.not_lt.2 hle)

lemma flatMap_of_stays (hc : text.drop a = x ++ y) (hp : Past all text old a)
    (hn : ∀ j, a ≤ j → j < a + x.length → ¬Moves all text old j) :
    (List.range' a x.length).flatMap (moved all text old new) = x := by
  induction x generalizing a with
  | nil => rfl
  | cons c x ih =>
    have hhead : text[a]? = some c := by
      rw [← List.head?_drop, hc]
      rfl
    have hstay : ¬Moves all text old a := hn a (Nat.le_refl a) (by simp)
    have hdrop : text.drop (a + 1) = x ++ y := by
      rw [← List.drop_drop, hc]
      rfl
    have hnext : Past all text old (a + 1) := by
      refine past_of_stays hp (Nat.le_succ a) fun j hj hlt => ?_
      rwa [show j = a by omega]
    rw [List.length_cons, List.range'_succ, List.flatMap_cons, moved_of_stays hp hstay, hhead,
      ih hdrop hnext fun j hj hlt => hn j (by omega) (by rw [List.length_cons]; omega)]
    rfl

lemma flatMap_of_moves (new : List Char) (hold : ∀ c ∈ old, isBlank c = true) (hp : Past all text old a)
    (hm : Moves all text old a) :
    (List.range' a (1 + old.length)).flatMap (moved all text old new) = '\n' :: new ∧
      Past all text old (a + (1 + old.length)) := by
  obtain ⟨t, ht⟩ := hm.2.2.2
  -- the old indentation has no newline in it
  have hstay : ∀ j, a + 1 ≤ j → j < a + 1 + old.length → ¬Moves all text old j := by
    intro j hj hlt hmove
    have hget := (getElem?_of_drop ht.symm hj hlt).symm.trans hmove.1
    exact absurd (hold _ (List.mem_of_getElem? hget)) (by decide)
  constructor
  · have hgone : (List.range' (a + 1) old.length).flatMap (moved all text old new) = [] := by
      rw [List.flatMap_eq_nil_iff]
      intro j hj
      obtain ⟨hle, hlt⟩ := List.mem_range'_1.1 hj
      rw [moved, if_neg (hstay j hle hlt), if_pos ⟨a, by omega, hm, by omega⟩]
    rw [Nat.add_comm, List.range'_succ, List.flatMap_cons, hgone, moved, if_pos hm, List.append_nil]
  · intro j hj hmove
    rcases Nat.lt_trichotomy j a with hlt | rfl | hgt
    · have := hp j hlt hmove
      omega
    · omega
    · exact absurd hmove (hstay j hgt (by omega))

lemma moves_iff (hc : text.drop a = '\n' :: cs) (hn : ∀ it ∈ all, ¬it.Holds a) :
    Moves all text old a ↔ (cs.head?.any (· ≠ '\n') && old.isPrefixOf cs) = true := by
  have hdrop : text.drop (a + 1) = cs := by
    rw [← List.drop_drop, hc]
    rfl
  have hhead : text[a]? = some '\n' := by
    rw [← List.head?_drop, hc]
    rfl
  rw [Moves, hhead, hdrop, ← List.head?_drop (i := a + 1), hdrop, Bool.and_eq_true,
    List.isPrefixOf_iff_prefix]
  exact ⟨fun h => h.2.2, fun h => ⟨rfl, hn, h⟩⟩

structure Place (all : List ParallelTests.Item) (text : List Char) (at_ : Cursor) (cs : List Char) :
    Prop where
  drop : text.drop at_.offset = cs
  items : ∃ pending its, Lexer.items at_ pending cs = .ok its ∧
    ∀ i, at_.offset ≤ i → ((∃ it ∈ all, it.Holds i) ↔ ∃ it ∈ its, it.Holds i)

namespace Place

lemma blanks {bs : List Char} (h : Place all text at_ (bs ++ cs)) (hb : ∀ c ∈ bs, isBlank c = true) :
    Place all text (at_.advance bs) cs := by
  have hoff := Cursor.offset_advance at_ bs
  obtain ⟨pending, its, hits, hall⟩ := h.items
  rw [items_blanks hb] at hits
  refine ⟨?_, pending, its, hits, fun i hi => hall i (by omega)⟩
  rw [hoff, ← List.drop_drop, h.drop, List.drop_left]

lemma next (h : Place all text at_ (c :: cs)) :
    ∃ x y k, cs = x ++ y ∧ first c (x ++ y) = .ok ⟨k, x.length⟩ ∧
      Place all text (at_.advance (c :: x)) y ∧
      ∀ i, at_.offset ≤ i → i < at_.offset + (c :: x).length →
        ((∃ it ∈ all, it.Holds i) ↔ k.isQuoted = true) := by
  obtain ⟨pending, its, hits, hall⟩ := h.items
  obtain ⟨x, y, k, rest, rfl, hf, hrest, rfl⟩ := items_inv hits
  have hoff := Cursor.offset_advance at_ (c :: x)
  have hsplit : ∀ i, (∃ it ∈ k.items at_ pending (c :: x) ++ rest, it.Holds i) ↔
      (k.isQuoted = true ∧ at_.offset ≤ i ∧ i < at_.offset + (c :: x).length) ∨
        ∃ it ∈ rest, it.Holds i := by
    intro i
    simp only [List.mem_append, or_and_right, exists_or, holds_items]
  refine ⟨x, y, k, rfl, hf, ⟨?_, _, rest, hrest, fun i hi => ?_⟩, fun i hle hlt => ?_⟩
  · rw [hoff, ← List.drop_drop, h.drop, ← List.cons_append, List.drop_left]
  · rw [hall i (by omega), hsplit]
    exact or_iff_right fun hin => by omega
  · rw [hall i hle, hsplit]
    constructor
    · rintro (hin | hrest')
      · exact hin.1
      · have := offset_le_of_holds hrest hrest'
        omega
    · exact fun hq => .inl ⟨hq, hle, hlt⟩

end Place

lemma lines_eq_flatMap (hold : ∀ c ∈ old, isBlank c = true) (h : Place all text at_ cs)
    (hp : Past all text old at_.offset) :
    lines old new none cs = (List.range' at_.offset cs.length).flatMap (moved all text old new) := by
  induction hn : cs.length using Nat.strongRecOn generalizing at_ cs with
  | ind n ih =>
    subst hn
    cases cs with
    | nil => rw [lines]; rfl
    | cons c cs =>
      obtain ⟨x, y, k, rfl, hf, hnext, hheld⟩ := h.next
      have copied (hcopy : lines old new none (c :: x ++ y) = c :: x ++ lines old new none y)
          (hstay : ∀ j, at_.offset ≤ j → j < at_.offset + (c :: x).length → ¬Moves all text old j) :
          lines old new none (c :: x ++ y) =
            (List.range' at_.offset (c :: x ++ y).length).flatMap (moved all text old new) := by
        have hpast := past_of_stays hp (Nat.le_add_right _ (c :: x).length) hstay
        rw [← Cursor.offset_advance] at hpast
        rw [hcopy, ih y.length (length_lt_cons_append _ _ _) hnext hpast rfl, Cursor.offset_advance,
          List.length_append, ← List.range'_append_1, List.flatMap_append,
          flatMap_of_stays h.drop hp hstay]
      by_cases hk : k = .newline
      · subst hk
        obtain ⟨rfl, hx⟩ := eq_newline_of_first hf
        obtain rfl := List.length_eq_zero_iff.1 hx
        have hfree : ∀ it ∈ all, ¬it.Holds at_.offset := fun it hit hhold =>
          Bool.false_ne_true ((hheld _ (Nat.le_refl _) (by simp)).1 ⟨it, hit, hhold⟩)
        have hiff : Moves all text old at_.offset ↔ _ := moves_iff h.drop hfree
        rw [List.nil_append] at hiff ⊢
        by_cases hm : Moves all text old at_.offset
        · obtain ⟨t, rfl⟩ := List.isPrefixOf_iff_prefix.1 (Bool.and_eq_true_iff.1 (hiff.1 hm)).2
          obtain ⟨hnew, hpast⟩ := flatMap_of_moves new hold hp hm
          have hoff : ((at_.advance ['\n']).advance old).offset = at_.offset + (1 + old.length) := by
            rw [Cursor.offset_advance, Cursor.offset_advance, List.length_singleton, Nat.add_assoc]
          rw [← hoff] at hpast
          have hrest := ih t.length (length_lt_cons_append _ _ _) (hnext.blanks hold) hpast rfl
          have hlen : ('\n' :: (old ++ t)).length = 1 + old.length + t.length := by
            simp only [List.length_cons, List.length_append]
            omega
          rw [lines_newline, if_pos (hiff.1 hm), List.drop_left, hrest, hoff, hlen,
            ← List.range'_append_1, List.flatMap_append, hnew, List.cons_append]
        · refine copied ?_ fun j hj hlt => ?_
          · rw [List.singleton_append, lines_newline, if_neg (hiff.not.1 hm)]
            rfl
          · rw [List.length_singleton] at hlt
            rwa [show j = at_.offset by omega]
      · refine copied (lines_item hf hk) fun j hj hlt hm => ?_
        cases hq : k.isQuoted with
        | true =>
          obtain ⟨it, hit, hhold⟩ := (hheld j hj hlt).2 hq
          exact hm.2.1 it hit hhold
        | false =>
          have hget := (getElem?_of_drop (x := c :: x) h.drop hj hlt).symm.trans hm.1
          exact ne_newline_of_first hf hk hq _ (List.mem_of_getElem? hget) rfl

/-- In a text that is read as tokens and comments, moving lines replaces the old indentation by the new
one behind the newlines that no comment and no literal holds, on lines that are not empty, and copies
all else. The tokens and the comments have the same texts, in the same order. -/
theorem apply_exact {r : Rebase} {path text : String}
    (h : (Source.ofString path text).items = .ok its)
    (hold : ∀ c ∈ r.old.toList, c = ' ' ∨ c = '\t') (hnew : ∀ c ∈ r.new.toList, c = ' ' ∨ c = '\t') :
    (r.apply text).toList =
        (List.range text.toList.length).flatMap (moved its text.toList r.old.toList r.new.toList) ∧
      ∃ its', (Source.ofString path (r.apply text)).items = .ok its' ∧
        its'.map Item.content = its.map Item.content := by
  have hold' : ∀ c ∈ r.old.toList, isBlank c = true := fun c hc =>
    Printer.isBlank_of_isIndent (Text.isIndent_iff.2 (hold c hc))
  have hnew' : ∀ c ∈ r.new.toList, isBlank c = true := fun c hc =>
    Printer.isBlank_of_isIndent (Text.isIndent_iff.2 (hnew c hc))
  have happly : (r.apply text).toList = lines r.old.toList r.new.toList none text.toList :=
    String.toList_ofList
  constructor
  · have hplace : Place its text.toList .start text.toList :=
      ⟨rfl, false, its, h, fun _ _ => Iff.rfl⟩
    have hpast : Past its text.toList r.old.toList Cursor.start.offset := fun j hj =>
      absurd hj (Nat.not_lt_zero j)
    rw [happly, List.range_eq_range', lines_eq_flatMap hold' hplace hpast]
    rfl
  · rw [Source.items, Source.ofString, happly]
    exact items_lines hold' hnew' h .start

end Rebase

def heldLines : String :=
  "a := \x60//\n  b\\\x60 + '\"' + \"\\\"/*\" /* c\n  d */\n\n  e() // f\n   g()\n h()"

set_option maxRecDepth 100000 in
theorem apply_exact_heldLines :
    ∃ its its', (Source.ofString "p.go" heldLines).items = .ok its ∧
      (Rebase.apply ⟨"  ", "\t"⟩ heldLines).toList =
        (List.range heldLines.toList.length).flatMap
          (Rebase.moved its heldLines.toList [' ', ' '] ['\t']) ∧
      (List.range heldLines.toList.length).filter (Rebase.Moves its heldLines.toList [' ', ' ']) =
        [42, 53] ∧
      (Source.ofString "p.go" (Rebase.apply ⟨"  ", "\t"⟩ heldLines)).items = .ok its' ∧
      its'.map Item.content = its.map Item.content := by
  have hmoves : ((Source.ofString "p.go" heldLines).items.toOption.any fun its =>
      (List.range heldLines.toList.length).filter (Rebase.Moves its heldLines.toList [' ', ' ']) =
        [42, 53]) = true := by decide +kernel
  obtain ⟨its, hits, hmoves⟩ := (Option.any_eq_true _ _).1 hmoves
  have hits := Except.toOption_eq_some.1 hits
  obtain ⟨hmoved, its', hits', hcontent⟩ :=
    Rebase.apply_exact (r := ⟨"  ", "\t"⟩) hits (by simp) (by simp)
  exact ⟨its, its', hits, hmoved, of_decide_eq_true hmoves, hits', hcontent⟩

end ParallelTests
