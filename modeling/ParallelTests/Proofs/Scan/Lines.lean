import ParallelTests.Proofs.Scan.Comment

namespace ParallelTests.Rebase

open Scan Text

variable {old new : List Char}

lemma lines_cons {c : Char} (hl : c ≠ '\n') (hq : isQuote c = false) {cs : List Char}
    (hs : c = '/' → cs.head? ≠ some '/' ∧ cs.head? ≠ some '*') :
    lines old new none (c :: cs) = c :: lines old new none cs := by
  rw [lines]
  by_cases hc : c = '/'
  · simp [hs hc, hq, hl]
  · simp [hc, hq, hl]

lemma lines_plain {x : List Char} (h : ∀ c ∈ x, isPlain c = true) (cs : List Char) :
    lines old new none (x ++ cs) = x ++ lines old new none cs := by
  induction x with
  | nil => rfl
  | cons c x ih =>
    have hc := h c (by simp)
    simp only [isPlain, Bool.and_eq_true, Bool.not_eq_true', decide_eq_true_eq] at hc
    rw [List.cons_append, lines_cons hc.2 hc.1.2 (fun he => absurd he hc.1.1),
      ih fun d hd => h d (by simp [hd]), List.cons_append]

lemma lines_quote {c : Char} (h : isQuote c = true) (cs : List Char) :
    lines old new none (c :: cs) = c :: lines old new (some c) cs := by
  have hs : c ≠ '/' := by
    rintro rfl
    simp [isQuote] at h
  rw [lines]
  simp [hs, h]

lemma lines_literal {mark : Char} (hm : mark ≠ '\\' ∧ mark ≠ '\x60') {x y : List Char}
    (h : literalLength mark (x ++ y) = some x.length) :
    lines old new (some mark) (x ++ y) = x ++ lines old new none y := by
  induction hn : x.length using Nat.strongRecOn generalizing x with
  | ind n ih =>
    subst hn
    cases x with
    | nil => exact absurd (literalLength_pos h) (by simp)
    | cons c x =>
      by_cases hc : c = '\\'
      · subst hc
        cases x with
        | nil =>
          cases y with
          | nil => simp [literalLength, hm.1.symm] at h
          | cons d y => simp [literalLength] at h
        | cons d x =>
          simp only [List.cons_append, literalLength, Option.map_eq_some_iff] at h
          obtain ⟨k, hk, he⟩ := h
          obtain rfl : k = x.length := by
            simp only [List.length_cons] at he
            omega
          rw [List.cons_append, List.cons_append, lines]
          simp [hm.2, ih x.length (by grind) hk rfl]
      · rw [List.cons_append, literalLength_cons hc] at h
        rw [List.cons_append, lines]
        split at h
        · next he =>
          have hx : x = [] := by simpa using h
          simp [he, hm.1, hx]
        · next he =>
          split at h
          · simp at h
          · obtain ⟨k, hk, hl⟩ := Option.map_eq_some_iff.1 h
            obtain rfl : k = x.length := by
              simp only [List.length_cons] at hl
              omega
            simp [hc, he, ih x.length (by simp) hk rfl]

lemma lines_raw {x y : List Char} (h : rawLength (x ++ y) = some x.length) :
    lines old new (some '\x60') (x ++ y) = x ++ lines old new none y := by
  have hx := rawLength_append h []
  rw [List.append_nil] at hx
  clear h
  induction x with
  | nil => simp [rawLength] at hx
  | cons c x ih =>
    rw [List.cons_append, lines]
    by_cases hc : c = '\x60'
    · subst hc
      have hn : x = [] := by simpa [rawLength, runLength] using hx
      simp [hn]
    · have : rawLength x = some x.length := by
        simpa [rawLength, runLength, hc] using hx
      simp [hc, ih this]

lemma operator_chars (o : Operator) :
    (∀ c ∈ o.chars.tail, isPlain c = true) ∧ ∀ c ∈ o.chars, c ≠ '\n' ∧ isQuote c = false := by
  have h : (Operator.all.all fun o => o.chars.tail.all isPlain &&
      o.chars.all fun c => c != '\n' && !isQuote c) = true := by decide
  simpa using List.all_eq_true.1 h o (Operator.mem_all o)

lemma isPlain_of_isWord {c : Char} (h : isWord c = true) : isPlain c = true :=
  isPlain_of_ne (by decide) h

lemma lines_lexeme {c : Char} {x y : List Char} {l : Lexeme}
    (h : first c (x ++ y) = .ok ⟨.lexeme l, x.length⟩) :
    lines old new none (c :: (x ++ y)) = c :: (x ++ lines old new none y) := by
  have plain (hc : ∀ d ∈ c :: x, isPlain d = true) :
      lines old new none (c :: (x ++ y)) = c :: (x ++ lines old new none y) :=
    lines_plain hc y
  obtain ⟨k, hk⟩ : ∃ k, k = Class.lexeme l := ⟨_, rfl⟩
  obtain ⟨n, hn⟩ : ∃ n, n = x.length := ⟨_, rfl⟩
  rw [← hk, ← hn] at h
  cases first_found h with
  | number hc =>
    have ht := (taken_numberLength c (x ++ y)).2
    rw [hn, List.take_left] at ht
    exact plain (by simpa [hc] using ht)
  | word hc =>
    have hx := (runLength_append_iff.1 hn).1
    simp only [isWordStart, Bool.and_eq_true] at hc
    refine plain fun d hd => isPlain_of_isWord ?_
    rcases List.mem_cons.1 hd with rfl | hd
    · exact hc.1
    · exact hx d hd
  | literal _ hc hl =>
    rw [hn] at hl
    rw [lines_quote (by rcases hc with rfl | rfl <;> rfl), lines_literal _ hl]
    rcases hc with rfl | rfl <;> decide
  | raw hc hl =>
    rw [hn] at hl
    subst hc
    rw [lines_quote rfl, lines_raw hl]
  | semicolon hc =>
    obtain rfl : x = [] := List.length_eq_zero_iff.1 hn.symm
    exact plain (by simp [hc, isPlain, isQuote])
  | operator ho hs =>
    have ho' := chars_of_ofHead? ho hn
    obtain ⟨ht, hq⟩ := operator_chars _
    rw [ho'] at ht hq
    obtain ⟨hl, hq⟩ := hq c (by simp)
    rw [List.tail_cons] at ht
    rw [lines_cons hl hq hs, lines_plain ht]
  | _ => simp at hk

lemma lines_newline (cs : List Char) :
    lines old new none ('\n' :: cs) =
      if cs.head?.any (· ≠ '\n') && old.isPrefixOf cs then
        '\n' :: (new ++ lines old new none (cs.drop old.length))
      else '\n' :: lines old new none cs := by
  rw [lines]
  simp [isQuote]

lemma lines_block {c : Char} {x : List Char} (h : IsBlock (c :: x)) (y : List Char) :
    lines old new none (c :: (x ++ y)) = c :: (x ++ lines old new none y) := by
  obtain ⟨z, hz, hb⟩ := h
  obtain ⟨rfl, rfl⟩ := List.cons.inj hz
  have hb' := blockLength_append (x := z) (y := []) (by simpa using hb) y
  rw [lines]
  simp [hb']

lemma lines_line {c : Char} {x y : List Char} (h : IsLine (c :: x)) (hy : EndsLine y) :
    lines old new none (c :: (x ++ y)) = c :: (x ++ lines old new none y) := by
  obtain ⟨z, hz, hn⟩ := h
  obtain ⟨rfl, rfl⟩ := List.cons.inj hz
  have hr := runLength_isLine hn hy
  have ht : (('/' :: z) ++ y).take ('/' :: z).length = '/' :: z := List.take_left
  have hd : (('/' :: z) ++ y).drop ('/' :: z).length = y := List.drop_left
  rw [lines]
  simp only [List.cons_append, List.head?_cons, decide_true, Bool.and_self, if_true] at hr ht hd ⊢
  rw [hr, ht, hd]
  rfl

lemma lines_self (quote : Option Char) (cs : List Char) : lines [] [] quote cs = cs := by
  fun_induction lines [] [] quote cs with
  | case7 _ cs _ _ ih => rw [ih, List.take_append_drop]
  | _ => simp_all

end ParallelTests.Rebase
