import ParallelTests.Parser.File
import ParallelTests.Proofs.Parse.Row
import ParallelTests.Proofs.Result

namespace ParallelTests

open Scan TokenGroup

variable {src : List Char} {a b : Nat} {gs : List TokenGroup}

namespace TokenGroup

lemma of_since {p : TokenGroup → Bool} {g : TokenGroup} {rest : List TokenGroup}
    (h : since p gs = g :: rest) : p g = true ∧ gs = upTo p gs ++ g :: rest := by
  refine ⟨?_, by rw [← h, upTo_append_since]⟩
  have := List.head?_dropWhile_not (fun g => !p g) gs
  rw [since] at h
  simpa [h] using this

lemma not_of_mem_upTo {p : TokenGroup → Bool} {g : TokenGroup} (h : g ∈ upTo p gs) :
    p g = false := by
  simpa using List.mem_takeWhile_imp h

lemma Matched.first {g : TokenGroup} (h : g.Matched) (hg : g.isSemicolon = false) :
    g.first.isSemicolon = false := by
  cases h with
  | leaf t => exact hg
  | pair ho => simp [TokenGroup.first, Token.isSemicolon, ho]

lemma Matched.not_automatic {g : TokenGroup} (h : g.Matched) (hg : g.isSemicolon = false) :
    g.first.isAutomatic = false :=
  Token.isAutomatic_of_isSemicolon (h.first hg)

lemma Matched.last {g : TokenGroup} (h : g.Matched) (hg : g.isSemicolon = false) :
    g.last.isSemicolon = false := by
  cases h with
  | leaf t => exact hg
  | pair _ hc => simp [TokenGroup.last, Token.isSemicolon, hc]

end TokenGroup

namespace Stretch

lemma runs_ne_nil (sep : TokenGroup → Bool) (gs : List TokenGroup) : runs sep gs ≠ [] := by
  cases gs with
  | nil => simp [runs]
  | cons g gs =>
    rw [runs]
    split
    · simp
    · split <;> simp

lemma runs_eq_cons {sep : TokenGroup → Bool} {r : List TokenGroup} {rs : List (List TokenGroup)}
    (h : runs sep gs = r :: rs) :
    (gs = r ∧ rs = []) ∨ ∃ g more, sep g = true ∧ gs = r ++ g :: more ∧ rs = runs sep more := by
  induction gs generalizing r rs with
  | nil =>
    obtain ⟨rfl, rfl⟩ := List.cons.inj h
    exact .inl ⟨rfl, rfl⟩
  | cons g gs ih =>
    rw [runs] at h
    split at h
    · next hr => exact absurd hr (runs_ne_nil sep gs)
    · next r' rs' hr =>
      split at h
      · next hs =>
        obtain ⟨rfl, rfl⟩ := List.cons.inj h
        exact .inr ⟨g, gs, hs, rfl, hr.symm⟩
      · obtain ⟨rfl, rfl⟩ := List.cons.inj h
        rcases ih hr with ⟨rfl, rfl⟩ | ⟨g', more, hs, rfl, rfl⟩
        · exact .inl ⟨rfl, rfl⟩
        · exact .inr ⟨g', more, hs, rfl, rfl⟩

lemma isInfix_of_mem_split {sep : TokenGroup → Bool} {st : Stretch} (h : st ∈ split sep gs) :
    st.toList <:+: gs := by
  obtain ⟨r, hr, hst⟩ := List.mem_filterMap.1 h
  rw [← ofList?_eq_some_iff.1 hst]
  clear hst h
  generalize hrs : runs sep gs = rs at hr
  induction rs generalizing gs with
  | nil => simp at hr
  | cons r' rs ih =>
    rcases runs_eq_cons hrs with ⟨rfl, rfl⟩ | ⟨g, more, -, rfl, rfl⟩
    · obtain rfl := List.mem_singleton.1 hr
      exact List.infix_rfl
    · rcases List.mem_cons.1 hr with rfl | hr
      · exact (List.prefix_append _ _).isInfix
      · exact (ih rfl hr).trans ((List.suffix_cons g more).trans (List.suffix_append _ _)).isInfix

lemma last_append (g : TokenGroup) (gs : List TokenGroup) (st : Stretch) :
    (⟨g, gs ++ st.toList⟩ : Stretch).last = st.last := by
  rw [last, last, List.getLastD_append_right, toList, List.getLastD_cons]

lemma first_of_cons {g : TokenGroup} {st : Stretch} {rest : List TokenGroup}
    (h : g :: gs = st.toList ++ rest) : st.first = g.first :=
  congrArg TokenGroup.first (List.cons.inj h).1.symm

lemma span_append (t : Token) (gs : List TokenGroup) (st : Stretch) :
    (⟨.leaf t, gs ++ st.toList⟩ : Stretch).span = (Span.ofToken t).through st.span := by
  rw [span, last_append]
  rfl

lemma eq_of_toList_eq {st st' : Stretch} (h : st.toList = st'.toList) : st = st' := by
  obtain ⟨g, gs⟩ := st
  obtain ⟨g', gs'⟩ := st'
  obtain ⟨rfl, rfl⟩ := List.cons.inj h
  rfl

end Stretch

lemma Scanned.nil (h : Scanned src a gs b) : Rowed src a [] b :=
  .nil h.sync_left h.sync_right h.le

lemma Scanned.joined_split {sep : TokenGroup → Bool} {β : Type} {R : Nat → List β → Nat → Prop}
    {ps : List β} (hnil : ∀ {a b gs}, Scanned src a gs b → R a [] b)
    (happend : ∀ {a m b xs ys}, R a xs m → R m ys b → R a (xs ++ ys) b) (h : Scanned src a gs b)
    (hf : List.Forall₂ (fun st p => ∀ a b, Scanned src a st.toList b → R a [p] b)
      (Stretch.split sep gs) ps) : R a ps b := by
  unfold Stretch.split at hf
  generalize hr : Stretch.runs sep gs = rs at hf
  induction rs generalizing gs a ps with
  | nil => exact absurd hr (Stretch.runs_ne_nil sep gs)
  | cons r rs ih =>
    obtain ⟨qs, ps', rfl, hps, hqs⟩ : ∃ qs ps', ps = qs ++ ps' ∧ List.Forall₂
        (fun st p => ∀ a b, Scanned src a st.toList b → R a [p] b)
        (rs.filterMap Stretch.ofList?) ps' ∧ ∀ m, Scanned src a r m → R a qs m := by
      cases hst : Stretch.ofList? r with
      | none =>
        rw [List.filterMap_cons_none hst] at hf
        exact ⟨[], ps, rfl, hf, fun m hm => hnil hm⟩
      | some st =>
        rw [List.filterMap_cons_some hst] at hf
        cases hf with
        | cons hp hps =>
          exact ⟨[_], _, rfl, hps, fun m hm => hp _ _ (Stretch.ofList?_eq_some_iff.1 hst ▸ hm)⟩
    rcases Stretch.runs_eq_cons hr with ⟨rfl, rfl⟩ | ⟨g, more, -, rfl, rfl⟩
    · cases hps
      rw [List.append_nil]
      exact hqs _ h
    · obtain ⟨m, hm, hm'⟩ := h.split
      exact happend (hqs m hm) (ih hm'.tail rfl hps)

lemma Scanned.rowed_split {sep : TokenGroup → Bool} {ps : List Placed} (h : Scanned src a gs b)
    (hf : List.Forall₂ (fun st p => ∀ a b, Scanned src a st.toList b → Rowed src a [p] b)
      (Stretch.split sep gs) ps) : Rowed src a ps b :=
  h.joined_split (·.nil) Rowed.append hf

lemma Scanned.rising_split {sep : TokenGroup → Bool} {β : Type} {f : β → List Nat} {ys : List β}
    (h : Scanned src a gs b)
    (hf : List.Forall₂ (fun st y => ∀ a b, Scanned src a st.toList b → Rising a (f y) b)
      (Stretch.split sep gs) ys) : Rising a (ys.flatMap f) b := by
  refine (h.joined_split (R := fun a ys b => a ≤ b ∧ Rising a (ys.flatMap f) b)
    (fun h => ⟨h.le, .nil _ _⟩) ?_ (hf.imp fun st y hy a b hs => ⟨hs.le, ?_⟩)).2
  · rintro a m b xs ys ⟨ha, hx⟩ ⟨hb, hy⟩
    rw [List.flatMap_append]
    exact ⟨ha.trans hb, hx.append hy (Nat.le_refl m) ha hb⟩
  · simpa using hy a b hs

lemma Scanned.of_mem_split {sep : TokenGroup → Bool} {st : Stretch} (h : Scanned src a gs b)
    (hm : st ∈ Stretch.split sep gs) : Scanned src a st.toList b := by
  obtain ⟨xs, ys, rfl⟩ := Stretch.isInfix_of_mem_split hm
  exact h.left.right

lemma Chain.first_of_mem_split {sep : TokenGroup → Bool} {st : Stretch} {t : Token}
    (h : Chain src (t :: tokens gs)) (ht : t.lexeme.endsLine = false)
    (hsep : ∀ g, sep g = true → g.last.lexeme.endsLine = false) (hm : st ∈ Stretch.split sep gs) :
    st.first.isAutomatic = false := by
  obtain ⟨r, hr, hst⟩ := List.mem_filterMap.1 hm
  obtain rfl := Stretch.ofList?_eq_some_iff.1 hst
  clear hst hm
  generalize hrs : Stretch.runs sep gs = rs at hr
  obtain ⟨ts, hts⟩ := st.tokens_eq_first
  induction rs generalizing gs t with
  | nil => simp at hr
  | cons r' rs ih =>
    rcases Stretch.runs_eq_cons hrs with ⟨rfl, rfl⟩ | ⟨g, more, hg, rfl, rfl⟩
    · obtain rfl := List.mem_singleton.1 hr
      rw [hts] at h
      exact h.not_automatic ht
    · rcases List.mem_cons.1 hr with rfl | hr
      · rw [tokens_append, hts] at h
        exact h.not_automatic ht
      · obtain ⟨ls, hls⟩ := g.spelled_eq_last
        rw [tokens_append, tokens_cons, hls, ← List.cons_append, List.append_assoc, ← List.append_assoc]
          at h
        exact ih h.right (hsep g hg) rfl hr

lemma Scanned.first_of_mem_split {sep : TokenGroup → Bool} {st : Stretch} (h : Scanned src a gs b)
    (hs : ∀ g ∈ gs, g.isSemicolon = false) (hm : st ∈ Stretch.split sep gs) :
    st.first.isAutomatic = false := by
  have hg : st.head ∈ gs := (Stretch.isInfix_of_mem_split hm).subset (List.mem_cons_self ..)
  exact (h.matched _ hg).not_automatic (hs _ hg)

lemma Scanned.rowed_mapM {sep : TokenGroup → Bool} {β : Type}
    {f : { st // st ∈ Stretch.split sep gs } → Parser.Result β} {ys : List β} (node : β → Placed)
    (P : Placed → Prop) (h : Scanned src a gs b) (hm : (Stretch.split sep gs).attach.mapM f = .ok ys)
    (hf : ∀ st hx y a b, Scanned src a st.toList b → f ⟨st, hx⟩ = .ok y →
      Rowed src a [node y] b ∧ P (node y)) :
    Rowed src a (ys.map node) b ∧ ∀ p ∈ ys.map node, P p := by
  constructor
  · refine h.rowed_split (List.forall₂_map_right_iff.2 ((Except.forall₂_of_attach_mapM hm).imp ?_))
    rintro st y ⟨hx, hy⟩ a b hs
    exact (hf st hx y a b hs hy).1
  · refine List.forall_mem_map.2 (Except.forall_of_attach_mapM hm fun st hx y hy => ?_)
    exact (hf st hx y a b (h.of_mem_split hx) hy).2

namespace Parser

lemma getLastD_cons (g : TokenGroup) (gs : List TokenGroup) (t : Token) :
    (tokens (g :: gs)).getLastD t = (tokens gs).getLastD g.last := by
  obtain ⟨ts, hts⟩ := g.spelled_eq_last
  rw [tokens_cons, List.getLastD_append_right, hts, List.getLastD_concat]

lemma of_signatureEnd {last t : Token} {stop : List TokenGroup} (h : signatureEnd last gs = (t, stop)) :
    ∃ pre, gs = pre ++ stop ∧ t = (tokens pre).getLastD last := by
  induction last, gs using signatureEnd.induct generalizing t stop with
  | case1 last => 
    obtain ⟨rfl, rfl⟩ := Prod.mk.inj h
    exact ⟨[], rfl, rfl⟩
  | case2 last t' gs hs =>
    rw [signatureEnd, if_pos hs] at h
    obtain ⟨rfl, rfl⟩ := Prod.mk.inj h
    exact ⟨[], rfl, rfl⟩
  | case3 last t' gs hs ih =>
    rw [signatureEnd, if_neg hs] at h
    obtain ⟨pre, rfl, rfl⟩ := ih h
    exact ⟨.leaf t' :: pre, rfl, (getLastD_cons (.leaf t') pre last).symm⟩
  | case4 last o inner c gs hs ih =>
    rw [signatureEnd, if_pos hs] at h
    obtain ⟨pre, rfl, rfl⟩ := ih h
    exact ⟨.pair .curly o inner c :: pre, rfl, (getLastD_cons (.pair .curly o inner c) pre last).symm⟩
  | case5 last o inner c gs hs =>
    rw [signatureEnd, if_neg hs] at h
    obtain ⟨rfl, rfl⟩ := Prod.mk.inj h
    exact ⟨[], rfl, rfl⟩
  | case6 last b o inner c gs hb ih =>
    rw [signatureEnd] at h
    · obtain ⟨pre, rfl, rfl⟩ := ih h
      exact ⟨.pair b o inner c :: pre, rfl, (getLastD_cons (.pair b o inner c) pre last).symm⟩
    · simpa using hb

end Parser

end ParallelTests
