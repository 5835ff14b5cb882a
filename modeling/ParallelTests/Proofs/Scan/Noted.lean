import ParallelTests.Proofs.Scan.Remarks
import ParallelTests.Proofs.Scan.Strung

/-!
The comments of a source are the comments among what is read, each at the offset at which it is read.
Line ends lie between two offsets if one of the marks between them ends a line.
-/

namespace ParallelTests.Scan

variable {src : List Char} {a b m p q : Nat} {pending : Bool} {ms ns : List Mark}

inductive Noted (src : List Char) : Nat → List Comment → Prop
  | nil {a : Nat} {ms : List Mark} (h : Reach src a ms src.length)
      (hn : ∀ text, .remark text ∉ ms) : Noted src a []
  | cons {a : Nat} {ms : List Mark} {c : Comment} {cs : List Comment} (h : Reach src a ms c.start)
      (hn : ∀ text, .remark text ∉ ms) (hop : Hop src c.start [.remark c.text.toList] c.stop)
      (rest : Noted src c.stop cs) : Noted src a (c :: cs)

lemma Noted.prepend {cs : List Comment} (h : Reach src a ms m) (hn : ∀ text, .remark text ∉ ms)
    (hc : Noted src m cs) : Noted src a cs := by
  have happend {ns : List Mark} (hn' : ∀ text, .remark text ∉ ns) (text : List Char) :
      Mark.remark text ∉ ms ++ ns := by
    simp [hn text, hn' text]
  cases hc with
  | nil h' hn' => exact .nil (h.trans h') (happend hn')
  | cons h' hn' hop rest => exact .cons (h.trans h') (happend hn') hop rest

lemma noted_of_items {cs : List Char} {at_ : Cursor} {its : List ParallelTests.Item}
    (h : Lexer.items at_ pending cs = .ok its) (hc : src.drop at_.offset = cs)
    (ha : at_.offset ≤ src.length) :
    Noted src at_.offset (its.filterMap Item.comment?) := by
  induction at_, pending, cs using Lexer.items.induct generalizing its with
  | case1 at_ pending =>
    rw [Lexer.items, Except.ok.injEq] at h
    have he : at_.offset = src.length := Nat.le_antisymm ha (List.drop_eq_nil_iff.1 hc)
    rw [← h, comments_due, he]
    exact .nil (.refl (Nat.le_refl _)) (by simp)
  | case2 at_ pending c cs cause he => simp [Lexer.items, he] at h
  | case3 at_ pending c cs more text next hf =>
    rename_i ih
    obtain ⟨hop, hd, hle⟩ := hop_of_first hc hf
    have ho : next.offset = _ := offset_next at_ hf
    simp only [Lexer.items, hf] at h
    obtain ⟨its, hi, rfl⟩ := Except.map_eq_ok_iff.1 h
    rw [List.filterMap_append, comments_due, List.nil_append]
    refine .prepend (.single (hop (by simp))) (by simp [Class.marks]) ?_
    rw [← ho]
    exact ih hi (ho ▸ hd) (ho ▸ hle)
  | case4 at_ pending c cs more text next hf =>
    rename_i ih
    obtain ⟨_, hd, hle⟩ := hop_of_first hc hf
    have ho : next.offset = _ := offset_next at_ hf
    simp only [Lexer.items, hf] at h
    have htext : src.drop at_.offset = text ++ cs.drop more := by simpa [text] using hc
    have hr := reach_blanks htext ha (isBlank_of_first hf)
    rw [← Cursor.offset_advance] at hr
    exact .prepend hr (by simp) (ih h (ho ▸ hd) (ho ▸ hle))
  | case5 at_ pending c cs more text next ended hf =>
    rename_i ih
    obtain ⟨hop, hd, hle⟩ := hop_of_first hc hf
    have ho : next.offset = _ := offset_next at_ hf
    simp only [Lexer.items, hf] at h
    obtain ⟨its, hi, rfl⟩ := Except.map_eq_ok_iff.1 h
    have hhere : (if ended then Lexer.due pending at_ else []).filterMap Item.comment? = [] := by
      cases ended
      · rfl
      · exact comments_due _ _
    rw [List.filterMap_append, hhere, List.nil_append,
      List.filterMap_cons_some (f := Item.comment?) rfl]
    have htext : (at_.comment text).text.toList = text := String.toList_ofList
    have hstop : (at_.comment text).stop = at_.offset + more + 1 := by
      rw [← ho]
      exact (Cursor.offset_advance at_ text).symm
    refine .cons (.refl ha) (by simp) ?_ ?_
    · rw [htext, hstop]
      exact hop (by simp)
    · rw [hstop, ← ho]
      exact ih hi (ho ▸ hd) (ho ▸ hle)
  | case6 at_ pending c cs more text next l hf =>
    rename_i ih
    obtain ⟨hop, hd, hle⟩ := hop_of_first hc hf
    have ho : next.offset = _ := offset_next at_ hf
    simp only [Lexer.items, hf] at h
    obtain ⟨its, hi, rfl⟩ := Except.map_eq_ok_iff.1 h
    rw [List.filterMap_cons_none (f := Item.comment?) rfl]
    refine .prepend (.single (hop (by simp))) (by simp [Class.marks]) ?_
    rw [← ho]
    exact ih hi (ho ▸ hd) (ho ▸ hle)

lemma Reach.past (h : Reach src a ms b) (hop : Hop src a ns m) (hb : a < b) :
    ∃ rest, ms = ns ++ rest ∧ Reach src m rest b := by
  cases h with
  | refl => exact absurd hb (Nat.lt_irrefl _)
  | step hop' h =>
    obtain ⟨rfl, rfl⟩ := hop.unique hop'
    exact ⟨_, rfl, h⟩

lemma Noted.mem {cs : List Comment} (ha : Sync src a) (h : Noted src a cs) {c : Comment}
    (hc : c ∈ cs) : Sync src c.start ∧ Hop src c.start [.remark c.text.toList] c.stop := by
  induction h with
  | nil => simp at hc
  | cons h _ hop _ ih =>
    rcases List.mem_cons.1 hc with rfl | hc
    · exact ⟨ha.reach h, hop⟩
    · exact ih ((ha.reach h).reach (.single hop)) hc

lemma Noted.exists_of_hop {cs : List Comment} {text : List Char} (h : Noted src a cs)
    (hr : Reach src a ns p) (hop : Hop src p [.remark text] q) :
    ∃ c ∈ cs, c.start = p ∧ c.stop = q ∧ c.text.toList = text := by
  induction h generalizing ns with
  | nil h hn =>
    obtain ⟨rest, rfl, -⟩ := (hr.trans (.single hop)).split h hop.le_length
    exact absurd (by simp) (hn text)
  | @cons a ms c cs h hn hop' _ ih =>
    rcases Nat.lt_trichotomy p c.start with hlt | rfl | hgt
    · obtain ⟨rest, rfl, hrest⟩ := hr.split h (Nat.le_of_lt hlt)
      obtain ⟨rest, rfl, -⟩ := hrest.past hop hlt
      exact absurd (by simp) (hn text)
    · obtain ⟨he, rfl⟩ := hop'.unique hop
      exact ⟨c, by simp, rfl, rfl, by simpa using he⟩
    · obtain ⟨rest, rfl, hrest⟩ := h.split hr (Nat.le_of_lt hgt)
      obtain ⟨rest, rfl, hpast⟩ := hrest.past hop' hgt
      obtain ⟨d, hd, hd'⟩ := ih hpast
      exact ⟨d, by simp [hd], hd'⟩

lemma mem_cut_iff {c : Char} :
    c ∈ cut src a b ↔ ∃ o, a ≤ o ∧ o < b ∧ src[o]? = some c := by
  rw [cut, List.mem_iff_getElem?]
  simp only [List.getElem?_take, List.getElem?_drop]
  constructor
  · rintro ⟨i, h⟩
    split at h
    · exact ⟨a + i, by omega, by omega, h⟩
    · cases h
  · rintro ⟨o, ha, hb, h⟩
    refine ⟨o - a, ?_⟩
    rw [if_pos (by omega), show a + (o - a) = o by omega, h]

lemma Hop.newline_mem (h : Hop src a ms m) (hq : ∀ k ∈ ms, k.isQuiet = true) :
    '\n' ∈ cut src a m ↔ ∃ k ∈ ms, k.breaks = true := by
  cases h with
  | @blank c cs hc hb =>
    have hn : c ≠ '\n' := by
      rintro rfl
      simp [isBlank] at hb
    have hcut : cut src a (a + 1) = [c] := by
      simpa using cut_of_cons (x := []) hc (Nat.le_refl _)
    simpa [hcut] using hn.symm
  | @item c x cs k hc hf hk =>
    rw [cut_of_cons hc (Nat.le_refl _), cut_self, List.append_nil]
    cases k with
    | newline =>
      obtain ⟨rfl, hx⟩ := eq_newline_of_first hf
      simp [Class.marks, Mark.breaks]
    | blank => exact absurd rfl hk
    | comment => simp [Class.marks, Mark.breaks]
    | lexeme l => simp [Class.marks, Mark.isQuiet] at hq

lemma Reach.newline_mem (h : Reach src a ms b) (hq : ∀ k ∈ ms, k.isQuiet = true) :
    '\n' ∈ cut src a b ↔ ∃ k ∈ ms, k.breaks = true := by
  induction h with
  | refl => simp
  | @step a m b ms ns hop h ih =>
    rw [List.forall_mem_append] at hq
    rw [← cut_append (Nat.le_of_lt hop.lt) h.le, List.mem_append, hop.newline_mem hq.1, ih hq.2]
    simp only [List.mem_append, or_and_right, exists_or]

lemma Hop.newline_inv (h : Hop src a [.newline] m) : src[a]? = some '\n' := by
  generalize hm : [Mark.newline] = ms at h
  cases h with
  | blank => simp at hm
  | @item c x cs k hc hf =>
    cases k with
    | newline =>
      obtain ⟨rfl, -⟩ := eq_newline_of_first hf
      rw [← List.head?_drop, hc, List.head?_cons]
    | _ => simp [Class.marks] at hm

end ParallelTests.Scan
