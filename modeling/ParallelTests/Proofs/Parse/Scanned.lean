import ParallelTests.Node.Placed
import ParallelTests.Proofs.Parse.Groups

namespace ParallelTests

open Scan TokenGroup

variable {src : List Char}

lemma Token.isAutomatic_of_isSemicolon {t : Token} (h : t.isSemicolon = false) :
    t.isAutomatic = false := by
  simp only [Token.isSemicolon] at h
  cases hl : t.lexeme <;> simp_all [Token.isAutomatic]

def Chain (src : List Char) (ts : List Token) : Prop :=
  ∃ a pending more, Sync src a ∧ Strung src a pending (ts ++ more)

namespace Chain

variable {t u : Token} {ts us : List Token}

lemma left (h : Chain src (ts ++ us)) : Chain src ts := by
  obtain ⟨a, pending, more, ha, hs⟩ := h
  exact ⟨a, pending, us ++ more, ha, by simpa using hs⟩

lemma right (h : Chain src (ts ++ us)) : Chain src us := by
  obtain ⟨a, pending, more, ha, hs⟩ := h
  induction ts generalizing a pending with
  | nil => exact ⟨a, pending, more, ha, hs⟩
  | cons t ts ih =>
    cases hs with
    | written h _ hop rest => exact ih _ _ ((ha.reach h).reach (.single hop)) rest
    | automatic h _ _ _ _ rest => exact ih _ _ (ha.reach h) rest

lemma mem (h : Chain src ts) (ht : t ∈ ts) :
    Sync src t.start ∧ Sync src t.stop ∧ t.start ≤ t.stop := by
  obtain ⟨a, pending, more, ha, hs⟩ := h
  obtain ⟨h₁, h₂, _, h₃⟩ := hs.mem ha (List.mem_append_left more ht)
  exact ⟨h₁, h₂, h₃⟩

lemma pairwise (h : Chain src ts) : ts.Pairwise fun t u => t.stop ≤ u.start := by
  obtain ⟨a, pending, more, ha, hs⟩ := h
  exact (List.pairwise_append.1 (hs.pairwise ha)).1

lemma hop (h : Chain src ts) (ht : t ∈ ts) (hn : t.isAutomatic = false) :
    Hop src t.start [.lexeme t.start t.lexeme] t.stop := by
  obtain ⟨xs, ys, rfl⟩ := List.append_of_mem ht
  obtain ⟨a, pending, more, ha, hs⟩ := h
  rw [List.append_assoc, List.cons_append] at hs
  exact (hs.behind hn).1

lemma not_automatic (h : Chain src (t :: u :: ts)) (ht : t.lexeme.endsLine = false) :
    u.isAutomatic = false := by
  obtain ⟨a, pending, more, -, hs⟩ := h
  cases hs with
  | written _ _ _ rest =>
    rw [ht] at rest
    exact rest.head_not_automatic u rfl
  | automatic _ _ _ _ _ rest => exact rest.head_not_automatic u rfl

lemma gap {semis : List Token} (h : Chain src (t :: semis ++ u :: ts)) (ht : t.isSemicolon = false)
    (hs : ∀ x ∈ semis, x.isSemicolon = true) (hu : u.isSemicolon = false) :
    ∃ ms, Reach src t.stop ms u.start ∧ (∀ m ∈ ms, m.isGap = true) ∧
      ((∃ m ∈ ms, m.ends t.lexeme.endsLine = true) ↔ semis ≠ []) := by
  obtain ⟨a, pending, more, ha, hc⟩ := h
  have hn := Token.isAutomatic_of_isSemicolon ht
  rw [List.append_assoc, List.cons_append, ← List.nil_append (t :: _)] at hc
  obtain ⟨ms, hr, hg, he, _⟩ := (hc.behind hn).2.gap hs hu
  exact ⟨ms, hr, hg, he⟩

end Chain

structure Scanned (src : List Char) (a : Nat) (gs : List TokenGroup) (b : Nat) : Prop where
  chain : Chain src (tokens gs)
  matched : ∀ g ∈ gs, g.Matched
  sync_left : Sync src a
  sync_right : Sync src b
  le : a ≤ b
  bounds : ∀ t ∈ tokens gs, a ≤ t.start ∧ t.stop ≤ b

lemma TokenGroup.spelled_eq_first (g : TokenGroup) : ∃ ts, g.spelled = g.first :: ts := by
  cases g with
  | leaf t => exact ⟨[], by simp [first]⟩
  | pair b o inner c => exact ⟨tokens inner ++ [c], by simp [first]⟩

lemma TokenGroup.spelled_eq_last (g : TokenGroup) : ∃ ts, g.spelled = ts ++ [g.last] := by
  cases g with
  | leaf t => exact ⟨[], by simp [last]⟩
  | pair b o inner c => exact ⟨o :: tokens inner, by simp [last]⟩

namespace Stretch

lemma tokens_eq_first (st : Stretch) : ∃ ts, tokens st.toList = st.first :: ts := by
  obtain ⟨ts, hts⟩ := st.head.spelled_eq_first
  exact ⟨ts ++ tokens st.tail, by rw [toList, tokens_cons, hts]; rfl⟩

lemma toList_eq_concat (st : Stretch) : st.toList = st.toList.dropLast ++ [st.tail.getLastD st.head] := by
  obtain ⟨g, gs⟩ := st
  rcases List.eq_nil_or_concat gs with rfl | ⟨gs, h, rfl⟩
  · rfl
  · rw [toList, List.concat_eq_append, ← List.cons_append, List.dropLast_concat]
    simp

lemma tokens_eq_last (st : Stretch) : ∃ ts, tokens st.toList = ts ++ [st.last] := by
  obtain ⟨ts, hts⟩ := (st.tail.getLastD st.head).spelled_eq_last
  refine ⟨tokens st.toList.dropLast ++ ts, ?_⟩
  rw [toList_eq_concat, tokens_append, List.dropLast_concat, tokens_cons, hts, tokens_nil,
    List.append_nil, List.append_assoc, last]

lemma last_eq_getLastD (st : Stretch) (t : Token) : st.last = (tokens st.toList).getLastD t := by
  obtain ⟨ts, hts⟩ := st.tokens_eq_last
  rw [hts, List.getLastD_concat]

end Stretch

namespace Chain

variable {st : Stretch} {t : Token}

lemma first_le (h : Chain src (tokens st.toList)) (ht : t ∈ tokens st.toList) :
    st.first.start ≤ t.start := by
  obtain ⟨ts, hts⟩ := st.tokens_eq_first
  rw [hts] at h ht
  rcases List.mem_cons.1 ht with rfl | ht
  · exact Nat.le_refl _
  · exact (h.mem (by simp)).2.2.trans ((List.pairwise_cons.1 h.pairwise).1 t ht)

lemma le_last (h : Chain src (tokens st.toList)) (ht : t ∈ tokens st.toList) :
    t.stop ≤ st.last.stop := by
  obtain ⟨ts, hts⟩ := st.tokens_eq_last
  rw [hts] at h ht
  rcases List.mem_append.1 ht with ht | ht
  · exact ((List.pairwise_append.1 h.pairwise).2.2 t ht _ (by simp)).trans (h.mem (by simp)).2.2
  · exact Nat.le_of_eq (by rw [List.mem_singleton.1 ht])

end Chain

namespace Scanned

variable {a b m : Nat} {g : TokenGroup} {gs xs ys : List TokenGroup}

lemma widen (h : Scanned src a gs b) {a' b' : Nat} (ha : Sync src a') (hb : Sync src b')
    (hla : a' ≤ a) (hlb : b ≤ b') : Scanned src a' gs b' :=
  ⟨h.chain, h.matched, ha, hb, hla.trans (h.le.trans hlb), fun t ht =>
    ⟨hla.trans (h.bounds t ht).1, (h.bounds t ht).2.trans hlb⟩⟩

lemma split (h : Scanned src a (xs ++ ys) b) :
    ∃ m, Scanned src a xs m ∧ Scanned src m ys b := by
  have hc := h.chain
  have hb := h.bounds
  rw [tokens_append] at hc hb
  have hm := List.forall_mem_append.1 h.matched
  have hb' := List.forall_mem_append.1 hb
  rcases List.eq_nil_or_concat (tokens xs) with hx | ⟨ts, t, hx⟩
  · refine ⟨a, ⟨hc.left, hm.1, h.sync_left, h.sync_left, Nat.le_refl a, by simp [hx]⟩,
      ⟨hc.right, hm.2, h.sync_left, h.sync_right, h.le, hb'.2⟩⟩
  · rw [List.concat_eq_append] at hx
    have ht : t ∈ tokens xs := by simp [hx]
    obtain ⟨hs, hs', hle⟩ := hc.left.mem ht
    have hp := hc.pairwise
    rw [List.pairwise_append, hx, List.pairwise_append] at hp
    have hbt := hb'.1 t ht
    refine ⟨t.stop, ⟨hc.left, hm.1, h.sync_left, hs', hbt.1.trans hle, fun u hu => ⟨(hb'.1 u hu).1, ?_⟩⟩,
      ⟨hc.right, hm.2, hs', h.sync_right, hbt.2, fun u hu => ⟨hp.2.2 t (by simp) u hu, (hb'.2 u hu).2⟩⟩⟩
    rw [hx] at hu
    rcases List.mem_append.1 hu with hu' | hu'
    · exact (hp.1.2.2 u hu' t (by simp)).trans hle
    · exact Nat.le_of_eq (by rw [List.mem_singleton.1 hu'])

lemma trim {st : Stretch} (h : Scanned src a st.toList b) :
    Scanned src st.first.start st.toList st.last.stop ∧ a ≤ st.first.start ∧ st.last.stop ≤ b := by
  obtain ⟨fs, hf⟩ := st.tokens_eq_first
  obtain ⟨ls, hl⟩ := st.tokens_eq_last
  have hfm : st.first ∈ tokens st.toList := by simp [hf]
  have hlm : st.last ∈ tokens st.toList := by simp [hl]
  exact ⟨⟨h.chain, h.matched, (h.chain.mem hfm).1, (h.chain.mem hlm).2.1,
    (h.chain.first_le hlm).trans (h.chain.mem hlm).2.2,
    fun t ht => ⟨h.chain.first_le ht, h.chain.le_last ht⟩⟩,
    (h.bounds _ hfm).1, (h.bounds _ hlm).2⟩

lemma lt {st : Stretch} (h : Scanned src a st.toList b) (hf : st.first.isAutomatic = false) :
    st.first.start < st.last.stop := by
  obtain ⟨ts, hts⟩ := st.tokens_eq_first
  have hm : st.first ∈ tokens st.toList := by simp [hts]
  exact (h.chain.hop hm hf).lt.trans_le (h.chain.le_last hm)

lemma around (xs : List TokenGroup) (st : Stretch) (h : Scanned src a (xs ++ (st.toList ++ ys)) b) :
    Scanned src a xs st.first.start ∧ Scanned src st.first.start st.toList st.last.stop ∧
      Scanned src st.last.stop ys b := by
  obtain ⟨m, hx, h'⟩ := h.split
  obtain ⟨n, hs, hy⟩ := h'.split
  obtain ⟨ht, hl, hr⟩ := hs.trim
  exact ⟨hx.widen hx.sync_left ht.sync_left (Nat.le_refl _) hl, ht,
    hy.widen ht.sync_right hy.sync_right hr (Nat.le_refl _)⟩

lemma left (h : Scanned src a (xs ++ ys) b) : Scanned src a xs b := by
  obtain ⟨m, hx, hy⟩ := h.split
  exact hx.widen hx.sync_left hy.sync_right (Nat.le_refl _) hy.le

lemma right (h : Scanned src a (xs ++ ys) b) : Scanned src a ys b := by
  obtain ⟨m, hx, hy⟩ := h.split
  exact hy.widen hx.sync_left hy.sync_right hx.le (Nat.le_refl _)

lemma behind (h : Scanned src a (g :: gs) b) : Scanned src g.last.stop gs b :=
  (around [] ⟨g, []⟩ h).2.2

lemma split_head (h : Scanned src a (g :: gs) b) :
    ∃ m, Scanned src a [g] m ∧ Scanned src m gs b := by
  rw [← List.singleton_append] at h
  exact h.split

lemma head (h : Scanned src a (g :: gs) b) : Scanned src a [g] b := by
  rw [← List.singleton_append] at h
  exact h.left

lemma tail (h : Scanned src a (g :: gs) b) : Scanned src a gs b := by
  rw [← List.singleton_append] at h
  exact h.right

lemma drop_head (h : Scanned src a gs b) : Scanned src a gs.tail b := by
  cases gs with
  | nil => exact h
  | cons g gs => exact h.tail

lemma first_not_automatic {t : Token} {st : Stretch}
    (h : Scanned src a (.leaf t :: (st.toList ++ gs)) b) (ht : t.lexeme.endsLine = false) :
    st.first.isAutomatic = false := by
  have hc := h.chain
  obtain ⟨ts, hts⟩ := st.tokens_eq_first
  rw [tokens_cons, tokens_append, hts] at hc
  exact hc.not_automatic ht

lemma inner {k : Bracket} {o c : Token} {inner : List TokenGroup}
    (h : Scanned src a (.pair k o inner c :: gs) b) : Scanned src o.stop inner c.start := by
  have hc := h.chain
  rw [tokens_cons, spelled_pair, List.cons_append, List.append_assoc, List.singleton_append] at hc
  have hp := List.pairwise_cons.1 hc.pairwise
  have hp' := (List.pairwise_append.1 hp.2)
  have hc' := hc
  rw [← List.singleton_append] at hc'
  replace hc' := hc'.right
  refine ⟨hc'.left, ?_, (hc.mem (by simp)).2.1, (hc.mem (t := c) (by simp)).1, hp.1 c (by simp),
    fun t ht => ⟨hp.1 t (by simp [ht]), hp'.2.2 t ht c (by simp)⟩⟩
  cases h.matched _ (List.mem_cons_self ..) with
  | pair _ _ h => exact h

lemma within {k : Bracket} {o c : Token} {inner : List TokenGroup}
    (h : Scanned src a (.pair k o inner c :: gs) b) : Scanned src a inner b := by
  have ho := h.chain.mem (t := o) (by simp)
  have hc := h.chain.mem (t := c) (by simp)
  exact h.inner.widen h.sync_left h.sync_right ((h.bounds o (by simp)).1.trans ho.2.2)
    (hc.2.2.trans (h.bounds c (by simp)).2)

lemma brackets {k : Bracket} {o c : Token} {inner : List TokenGroup}
    (h : Scanned src a (.pair k o inner c :: gs) b) :
    Hop src o.start [.lexeme o.start (.op (.opening k))] o.stop ∧
      Hop src c.start [.lexeme c.start (.op (.closing k))] c.stop := by
  have hm := h.matched _ (List.mem_cons_self ..)
  cases hm with
  | pair ho hc _ =>
    exact ⟨ho ▸ h.chain.hop (t := o) (by simp) (by simp [Token.isAutomatic, ho]),
      hc ▸ h.chain.hop (t := c) (by simp) (by simp [Token.isAutomatic, hc])⟩

end Scanned

end ParallelTests
