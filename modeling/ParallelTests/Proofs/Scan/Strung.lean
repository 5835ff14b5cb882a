import ParallelTests.Proofs.Result
import ParallelTests.Proofs.Scan.Says
import ParallelTests.Token.Lexer

namespace ParallelTests.Scan

namespace Mark

def breaks : Mark → Bool
  | newline => true
  | remark text => text.contains '\n'
  | lexeme _ _ => false

def isQuiet : Mark → Bool
  | lexeme _ _ => false
  | _ => true

end Mark

def Quiet (pending : Bool) (ms : List Mark) : Prop :=
  ∀ m ∈ ms, m.isQuiet = true ∧ (pending = true → m.breaks = false)

inductive Strung (src : List Char) : Nat → Bool → List Token → Prop
  | nil {a : Nat} {ms : List Mark} (h : Reach src a ms src.length) (hq : Quiet false ms) :
      Strung src a false []
  | written {a : Nat} {pending : Bool} {ms : List Mark} {t : Token} {ts : List Token}
      (h : Reach src a ms t.start) (hq : Quiet pending ms)
      (hop : Hop src t.start [.lexeme t.start t.lexeme] t.stop)
      (rest : Strung src t.stop t.lexeme.endsLine ts) : Strung src a pending (t :: ts)
  | automatic {a : Nat} {ms : List Mark} {t : Token} {ts : List Token}
      (h : Reach src a ms t.start) (hq : Quiet true ms) (hl : t.lexeme = .semicolon false)
      (hs : t.stop = t.start)
      (hb : ∀ ns b, Reach src t.start ns b → t.start < b → ∃ m ∈ ns, m.breaks = true)
      (rest : Strung src t.start false ts) : Strung src a true (t :: ts)

variable {src : List Char} {a b m : Nat} {pending : Bool} {ms : List Mark} {ts : List Token}

lemma Hop.not_automatic {start : Nat} {l : Lexeme} (h : Hop src a [.lexeme start l] m) :
    l ≠ .semicolon false := by
  rintro rfl
  obtain ⟨c, x, cs, -, -, hf, -⟩ := h.lexeme_inv
  generalize hk : Class.lexeme (.semicolon false) = k at hf
  generalize x.length = n at hf
  cases first_found hf with
  | word =>
    simp only [Lexeme.ofWord, Class.lexeme.injEq] at hk
    split at hk <;> cases hk
  | literal hm => rcases hm with rfl | rfl <;> cases hk
  | _ => cases hk

lemma quiet_nil : Quiet pending [] := by
  simp [Quiet]

lemma Quiet.append {ns : List Mark} (h : Quiet pending ms) (h' : Quiet pending ns) :
    Quiet pending (ms ++ ns) := by
  intro m hm
  rcases List.mem_append.1 hm with hm | hm
  · exact h m hm
  · exact h' m hm

lemma Strung.prepend (h : Reach src a ms m) (hq : Quiet pending ms) (hs : Strung src m pending ts) :
    Strung src a pending ts := by
  cases hs with
  | nil h' hq' => exact .nil (h.trans h') (hq.append hq')
  | written h' hq' hop rest => exact .written (h.trans h') (hq.append hq') hop rest
  | automatic h' hq' hl hs hb rest =>
    exact .automatic (h.trans h') (hq.append hq') hl hs hb rest

lemma Strung.break {mark : Mark} (hop : Hop src a [mark] m) (hq : mark.isQuiet = true)
    (hb : mark.breaks = true) (at_ : Cursor) (ha : at_.offset = a) (hs : Strung src m false ts) :
    Strung src a pending ((Lexer.due pending at_).filterMap Item.token? ++ ts) := by
  have hprep : Strung src a false ts :=
    Strung.prepend (.single hop) (by simpa [Quiet] using hq) hs
  cases pending with
  | false => simpa [Lexer.due] using hprep
  | true =>
    subst ha
    refine .automatic (t := at_.semicolon) (.refl (Nat.le_trans (Nat.le_of_lt hop.lt) hop.le_length))
      quiet_nil rfl rfl ?_ hprep
    intro ns b h hlt
    cases h with
    | refl => exact absurd hlt (Nat.lt_irrefl _)
    | step hop' _ =>
      obtain ⟨rfl, _⟩ := hop.unique hop'
      exact ⟨mark, by simp, hb⟩

lemma reach_blanks {bs cs : List Char} (h : src.drop a = bs ++ cs) (ha : a ≤ src.length)
    (hb : ∀ c ∈ bs, isBlank c = true) : Reach src a [] (a + bs.length) := by
  induction bs generalizing a with
  | nil => exact .refl ha
  | cons c bs ih =>
    have hd : src.drop (a + 1) = bs ++ cs := by
      rw [← List.drop_drop, h]
      rfl
    have hop : Hop src a [] (a + 1) := .blank h (hb c (by simp))
    have := ih hd hop.le_length fun d hd => hb d (by simp [hd])
    rw [List.length_cons, Nat.add_comm bs.length, ← Nat.add_assoc]
    exact .step hop this

lemma isBlank_of_first {c : Char} {cs : List Char} {more : Nat}
    (hf : first c cs = .ok ⟨.blank, more⟩) : ∀ d ∈ c :: cs.take more, isBlank d = true := by
  generalize hk : Class.blank = k at hf
  cases first_found hf with
  | blank hb =>
    intro d hd
    rcases List.mem_cons.1 hd with rfl | hd
    · exact hb
    · rw [take_runLength] at hd
      exact List.mem_takeWhile_imp hd
  | _ => simp at hk

lemma hop_of_first {c : Char} {cs : List Char} {k : Class} {more : Nat} (hc : src.drop a = c :: cs)
    (hf : first c cs = .ok ⟨k, more⟩) :
    (k ≠ .blank → Hop src a (k.marks a (c :: cs.take more)) (a + more + 1)) ∧
      src.drop (a + more + 1) = cs.drop more ∧ a + more + 1 ≤ src.length := by
  have hl : (cs.take more).length = more := List.length_take_of_le (first_more_le hf)
  have hc' : src.drop a = c :: (cs.take more ++ cs.drop more) := by rw [List.take_append_drop, hc]
  have hd := drop_of_cons hc'
  rw [hl] at hd
  refine ⟨fun hk => ?_, hd, ?_⟩
  · have hop := Hop.item hc' (by rw [List.take_append_drop, hl]; exact hf) hk
    rwa [hl] at hop
  · have := congrArg List.length hc
    have := first_more_le hf
    simp at *
    omega

lemma offset_next (at_ : Cursor) {c : Char} {cs : List Char} {k : Class} {more : Nat}
    (hf : first c cs = .ok ⟨k, more⟩) :
    (at_.advance (c :: cs.take more)).offset = at_.offset + more + 1 := by
  rw [Cursor.offset_advance, List.length_cons, List.length_take_of_le (first_more_le hf),
    Nat.add_assoc]

lemma strung_of_items {cs : List Char} {at_ : Cursor} {its : List ParallelTests.Item}
    (h : Lexer.items at_ pending cs = .ok its) (hc : src.drop at_.offset = cs)
    (ha : at_.offset ≤ src.length) :
    Strung src at_.offset pending (its.filterMap Item.token?) := by
  induction at_, pending, cs using Lexer.items.induct generalizing its with
  | case1 at_ pending =>
    rw [Lexer.items, Except.ok.injEq] at h
    subst h
    have he : at_.offset = src.length := Nat.le_antisymm ha (List.drop_eq_nil_iff.1 hc)
    have hnil : Strung src at_.offset false [] := .nil (he ▸ .refl ha) quiet_nil
    cases pending with
    | false => exact hnil
    | true =>
      refine .automatic (t := at_.semicolon) (.refl ha) quiet_nil rfl rfl ?_ hnil
      intro ns b hr hlt
      have := hr.le_length
      have : at_.offset < b := hlt
      omega
  | case2 at_ pending c cs cause he => simp [Lexer.items, he] at h
  | case3 at_ pending c cs more text next hf =>
    rename_i ih
    obtain ⟨hop, hd, hle⟩ := hop_of_first hc hf
    have ho : next.offset = _ := offset_next at_ hf
    simp only [Lexer.items, hf] at h
    obtain ⟨its, hi, rfl⟩ := Except.map_eq_ok_iff.1 h
    rw [List.filterMap_append]
    refine Strung.break (hop (by simp)) rfl rfl at_ rfl ?_
    rw [← ho]
    exact ih hi (ho ▸ hd) (ho ▸ hle)
  | case4 at_ pending c cs more text next hf =>
    rename_i ih
    obtain ⟨_, hd, hle⟩ := hop_of_first hc hf
    have ho : next.offset = _ := offset_next at_ hf
    simp only [Lexer.items, hf] at h
    have htext : src.drop at_.offset = text ++ cs.drop more := by simpa [text] using hc
    have hr := reach_blanks htext ha (isBlank_of_first hf)
    rw [← Cursor.offset_advance] at hr
    exact .prepend hr quiet_nil (ih h (ho ▸ hd) (ho ▸ hle))
  | case5 at_ pending c cs more text next ended hf =>
    rename_i ih
    obtain ⟨hop, hd, hle⟩ := hop_of_first hc hf
    have ho : next.offset = _ := offset_next at_ hf
    simp only [Lexer.items, hf] at h
    obtain ⟨its, hi, rfl⟩ := Except.map_eq_ok_iff.1 h
    have hs := ih hi (ho ▸ hd) (ho ▸ hle)
    rw [ho] at hs
    rw [List.filterMap_append, List.filterMap_cons_none rfl]
    cases he : ended with
    | true =>
      rw [he, Bool.not_true, Bool.and_false] at hs
      rw [if_pos he]
      exact Strung.break (hop (by simp)) rfl he at_ rfl hs
    | false =>
      rw [he, Bool.not_false, Bool.and_true] at hs
      rw [if_neg (Bool.eq_false_iff.1 he)]
      refine Strung.prepend (.single (hop (by simp))) ?_ hs
      intro m hm
      obtain rfl := List.mem_singleton.1 hm
      exact ⟨rfl, fun _ => he⟩
  | case6 at_ pending c cs more text next l hf =>
    rename_i ih
    obtain ⟨hop, hd, hle⟩ := hop_of_first hc hf
    have ho : next.offset = _ := offset_next at_ hf
    simp only [Lexer.items, hf] at h
    obtain ⟨its, hi, rfl⟩ := Except.map_eq_ok_iff.1 h
    rw [List.filterMap_cons_some (f := Item.token?) rfl]
    have hstop : (at_.token text l).stop = at_.offset + more + 1 := by
      rw [← ho]
      exact (Cursor.offset_advance at_ text).symm
    refine .written (.refl ha) quiet_nil ?_ ?_
    · rw [hstop]
      exact hop (by simp)
    · rw [hstop, ← ho]
      exact ih hi (ho ▸ hd) (ho ▸ hle)

namespace Strung

lemma mem (ha : Sync src a) (h : Strung src a pending ts) {t : Token} (ht : t ∈ ts) :
    Sync src t.start ∧ Sync src t.stop ∧ a ≤ t.start ∧ t.start ≤ t.stop := by
  induction h with
  | nil => simp at ht
  | written h _ hop rest ih =>
    have hs := ha.reach h
    have hs' := hs.reach (.single hop)
    have := h.le
    have := hop.lt
    rcases List.mem_cons.1 ht with rfl | ht
    · exact ⟨hs, hs', by omega, by omega⟩
    · obtain ⟨h₁, h₂, h₃, h₄⟩ := ih hs' ht
      exact ⟨h₁, h₂, by omega, h₄⟩
  | automatic h _ _ hs _ _ ih =>
    have hs' := ha.reach h
    have := h.le
    rcases List.mem_cons.1 ht with rfl | ht
    · exact ⟨hs', hs ▸ hs', by omega, by omega⟩
    · obtain ⟨h₁, h₂, h₃, h₄⟩ := ih hs' ht
      exact ⟨h₁, h₂, by omega, h₄⟩

lemma pairwise (ha : Sync src a) (h : Strung src a pending ts) :
    ts.Pairwise fun t t' => t.stop ≤ t'.start := by
  induction h with
  | nil => exact .nil
  | written h _ hop rest ih =>
    have hs' := (ha.reach h).reach (.single hop)
    exact .cons (fun t' ht => (rest.mem hs' ht).2.2.1) (ih hs')
  | automatic h _ _ hs _ rest ih =>
    have hs' := ha.reach h
    exact .cons (fun t' ht => hs ▸ (rest.mem hs' ht).2.2.1) (ih hs')

lemma head_not_automatic (h : Strung src a false ts) : ∀ t ∈ ts.head?, t.isAutomatic = false := by
  cases h with
  | nil => simp
  | written _ _ hop => simpa [Token.isAutomatic] using hop.not_automatic

lemma behind {pre : List Token} {t : Token} (h : Strung src a pending (pre ++ t :: ts))
    (ht : t.isAutomatic = false) :
    Hop src t.start [.lexeme t.start t.lexeme] t.stop ∧ Strung src t.stop t.lexeme.endsLine ts := by
  induction pre generalizing a pending with
  | nil =>
    cases h with
    | written _ _ hop rest => exact ⟨hop, rest⟩
    | automatic _ _ hl => simp [Token.isAutomatic, hl] at ht
  | cons t' pre ih =>
    cases h with
    | written _ _ _ rest => exact ih rest
    | automatic _ _ _ _ _ rest => exact ih rest

end Strung

namespace Mark

def isGap : Mark → Bool
  | lexeme _ (.semicolon _) => true
  | lexeme _ _ => false
  | _ => true

def ends (pending : Bool) : Mark → Bool
  | lexeme _ (.semicolon _) => true
  | m => pending && m.breaks

lemma isGap_of_isQuiet {m : Mark} (h : m.isQuiet = true) : m.isGap = true := by
  cases m <;> simp_all [isQuiet, isGap]

lemma ends_of_isQuiet {m : Mark} (h : m.isQuiet = true) (hb : pending = true → m.breaks = false) :
    m.ends pending = false := by
  cases m <;> simp_all [isQuiet, ends]

end Mark

lemma Strung.gap {semis : List Token} {t : Token} (h : Strung src a pending (semis ++ t :: ts))
    (hs : ∀ x ∈ semis, x.isSemicolon = true) (ht : t.isSemicolon = false) :
    ∃ ms, Reach src a ms t.start ∧ (∀ m ∈ ms, m.isGap = true) ∧
      ((∃ m ∈ ms, m.ends pending = true) ↔ semis ≠ []) ∧
      Hop src t.start [.lexeme t.start t.lexeme] t.stop := by
  induction semis generalizing a pending with
  | nil =>
    cases h with
    | @written _ _ ms _ _ h hq hop rest =>
      refine ⟨ms, h, fun m hm => Mark.isGap_of_isQuiet (hq m hm).1, ?_, hop⟩
      simp only [ne_eq, not_true_eq_false, iff_false, not_exists, not_and, Bool.not_eq_true]
      exact fun m hm => Mark.ends_of_isQuiet (hq m hm).1 (hq m hm).2
    | automatic _ _ hl => simp [Token.isSemicolon, hl] at ht
  | cons x semis ih =>
    have hs' : ∀ y ∈ semis, y.isSemicolon = true := fun y hy => hs y (by simp [hy])
    cases h with
    | @written _ _ ms _ _ h hq hop rest =>
      obtain ⟨w, hw⟩ : ∃ w, x.lexeme = .semicolon w := by
        have := hs x (by simp)
        unfold Token.isSemicolon at this
        split at this <;> simp_all
      obtain ⟨ns, hr, hg, _, hop'⟩ := ih rest hs'
      refine ⟨ms ++ ([.lexeme x.start x.lexeme] ++ ns), h.trans (.step hop hr), ?_, ?_, hop'⟩
      · intro m hm
        simp only [List.mem_append, List.mem_singleton] at hm
        rcases hm with hm | rfl | hm
        · exact Mark.isGap_of_isQuiet (hq m hm).1
        · simp [hw, Mark.isGap]
        · exact hg m hm
      · exact ⟨fun _ => by simp, fun _ => ⟨.lexeme x.start x.lexeme, by simp, by simp [hw, Mark.ends]⟩⟩
    | @automatic _ ms _ _ h hq _ _ hb rest =>
      obtain ⟨ns, hr, hg, _, hop'⟩ := ih rest hs'
      refine ⟨ms ++ ns, h.trans hr, ?_, ⟨fun _ => by simp, fun _ => ?_⟩, hop'⟩
      · intro m hm
        rcases List.mem_append.1 hm with hm | hm
        · exact Mark.isGap_of_isQuiet (hq m hm).1
        · exact hg m hm
      · have hr' := hr.trans (.single hop')
        obtain ⟨m, hm, hbr⟩ := hb _ _ hr' (Nat.lt_of_le_of_lt hr.le hop'.lt)
        rcases List.mem_append.1 hm with hm | hm
        · refine ⟨m, by simp [hm], ?_⟩
          cases m <;> simp_all [Mark.ends, Mark.breaks]
        · obtain rfl := List.mem_singleton.1 hm
          simp [Mark.breaks] at hbr

end ParallelTests.Scan
