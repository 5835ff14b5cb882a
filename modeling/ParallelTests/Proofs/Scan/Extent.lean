import Mathlib.Data.List.TakeWhile
import ParallelTests.Printer.Rebase
import ParallelTests.Proofs.Scan.Boundary

namespace ParallelTests.Scan

open Text

def isPlain (c : Char) : Bool :=
  c ≠ '/' && !Rebase.isQuote c && c ≠ '\n'

lemma isPlain_of_ne {p : Char → Bool} (hp : misses p ['/', '"', '\'', '\x60', '\n'] = true)
    {c : Char} (h : p c = true) : isPlain c = true := by
  by_contra hn
  have hc : c ∈ ['/', '"', '\'', '\x60', '\n'] := by
    by_cases hs : c = '/'
    · simp [hs]
    · by_cases hl : c = '\n'
      · simp [hl]
      · by_contra hq
        simp only [List.mem_cons, not_or] at hq
        exact hn (by simp [isPlain, Rebase.isQuote, hq])
  rw [not_of_misses hp hc] at h
  simp at h

def Taken (f : List Char → Nat) : Prop :=
  ∀ cs, f cs ≤ cs.length ∧ ∀ c ∈ cs.take (f cs), isPlain c = true

lemma runLength_le (p : Char → Bool) (cs : List Char) : runLength p cs ≤ cs.length :=
  (List.takeWhile_prefix p).length_le

lemma take_runLength (p : Char → Bool) (cs : List Char) :
    cs.take (runLength p cs) = cs.takeWhile p :=
  (List.prefix_iff_eq_take.1 (List.takeWhile_prefix p)).symm

lemma taken_runLength {p : Char → Bool}
    (hp : misses p ['/', '"', '\'', '\x60', '\n'] = true) : Taken (runLength p) := by
  intro cs
  refine ⟨runLength_le p cs, fun c hc => isPlain_of_ne hp ?_⟩
  rw [take_runLength] at hc
  exact List.mem_takeWhile_imp hc

lemma Taken.then {f g : List Char → Nat} (hf : Taken f) (hg : Taken g) :
    Taken fun cs => f cs + g (cs.drop (f cs)) := by
  intro cs
  obtain ⟨hl, hc⟩ := hf cs
  obtain ⟨hl', hc'⟩ := hg (cs.drop (f cs))
  rw [List.length_drop] at hl'
  refine ⟨by simp only; omega, fun c h => ?_⟩
  rw [List.take_add] at h
  rcases List.mem_append.1 h with h | h
  · exact hc c h
  · exact hc' c h

lemma taken_fractionLength {digit : Char → Bool}
    (hd : misses digit ['/', '"', '\'', '\x60', '\n'] = true) : Taken (fractionLength digit) := by
  intro cs
  unfold fractionLength
  split
  · next cs =>
    obtain ⟨hl, hc⟩ := taken_runLength hd cs
    refine ⟨by simpa using hl, fun c h => ?_⟩
    rw [List.take_succ_cons] at h
    rcases List.mem_cons.1 h with rfl | h
    · rfl
    · exact hc c h
  · simp

lemma taken_signLength : Taken signLength := by
  intro cs
  unfold signLength
  split <;> simp [isPlain, Rebase.isQuote]

lemma taken_exponentLength {mark : Char → Bool}
    (hm : misses mark ['/', '"', '\'', '\x60', '\n'] = true) : Taken (exponentLength mark) := by
  intro cs
  cases cs with
  | nil => simp [exponentLength]
  | cons c cs =>
    obtain ⟨hl, hc⟩ := (taken_signLength.then (taken_runLength (p := isNumeral) (by decide))) cs
    simp only [exponentLength]
    split
    · next h =>
      simp only [Bool.and_eq_true] at h
      refine ⟨by simpa using hl, fun d hd => ?_⟩
      rw [List.take_succ_cons] at hd
      rcases List.mem_cons.1 hd with rfl | hd
      · exact isPlain_of_ne hm h.1
      · exact hc d hd
    · simp

lemma taken_imaginaryLength : Taken imaginaryLength := by
  intro cs
  unfold imaginaryLength
  split <;> simp [isPlain, Rebase.isQuote]

lemma taken_tailLength {digit mark : Char → Bool}
    (hd : misses digit ['/', '"', '\'', '\x60', '\n'] = true)
    (hm : misses mark ['/', '"', '\'', '\x60', '\n'] = true) : Taken (tailLength digit mark) :=
  (((taken_runLength hd).then (taken_fractionLength hd)).then (taken_exponentLength hm)).then
    taken_imaginaryLength

lemma taken_decimalTail : Taken (tailLength isNumeral isTenMark) :=
  taken_tailLength (by decide) (by decide)

lemma Taken.cons {f : List Char → Nat} (hf : Taken f) {c : Char} (hc : isPlain c = true)
    (cs : List Char) :
    f cs + 1 ≤ (c :: cs).length ∧ ∀ d ∈ (c :: cs).take (f cs + 1), isPlain d = true := by
  obtain ⟨hl, ht⟩ := hf cs
  refine ⟨by simpa using hl, fun d hd => ?_⟩
  rw [List.take_succ_cons] at hd
  rcases List.mem_cons.1 hd with rfl | hd
  · exact hc
  · exact ht d hd

lemma taken_numberLength (c : Char) : Taken (numberLength c) := by
  intro cs
  unfold numberLength
  split
  · exact (((taken_runLength (by decide)).then (taken_exponentLength (by decide))).then
      taken_imaginaryLength) cs
  · cases cs with
    | nil => simp
    | cons x rest =>
      simp only
      split
      · next h =>
        rw [Bool.and_eq_true] at h
        have hx := isPlain_of_ne (p := fun x => x = 'x' || x = 'X') (by decide) h.2
        exact (taken_tailLength (by decide) (by decide)).cons hx rest
      · split
        · next h =>
          split
          · next n hn =>
            rw [Bool.and_eq_true] at h
            have hx := isPlain_of_ne (p := fun x => x = 'b' || x = 'B' || x = 'o' || x = 'O')
              (by decide) h.2
            simp only [basedLength] at hn
            split at hn
            · obtain rfl := Option.some.inj hn
              exact ((taken_runLength (by decide)).then taken_imaginaryLength).cons hx rest
            · simp at hn
          · exact taken_decimalTail _
        · exact taken_decimalTail _

lemma blockLength_le {cs : List Char} {n : Nat} (h : blockLength cs = some n) : n ≤ cs.length := by
  induction cs generalizing n with
  | nil => simp [blockLength] at h
  | cons c cs ih =>
    unfold blockLength at h
    split at h
    · simp at h
    · next he =>
      obtain rfl := Option.some.inj h
      rw [he]
      simp
    · next he =>
      obtain ⟨rfl, rfl⟩ := List.cons.inj he
      obtain ⟨k, hk, rfl⟩ := Option.map_eq_some_iff.1 h
      have := ih hk
      simp
      omega

lemma literalLength_le {mark : Char} {cs : List Char} {n : Nat} (h : literalLength mark cs = some n) :
    n ≤ cs.length := by
  fun_induction literalLength mark cs generalizing n with
  | case1 => simp at h
  | case2 _ cs ih =>
    obtain ⟨k, hk, rfl⟩ := Option.map_eq_some_iff.1 h
    have := ih hk
    simp
    omega
  | case3 => simp_all
  | case4 => simp at h
  | case5 c cs _ _ _ ih =>
    obtain ⟨k, hk, rfl⟩ := Option.map_eq_some_iff.1 h
    have := ih hk
    simp
    omega

lemma rawLength_le {cs : List Char} {n : Nat} (h : rawLength cs = some n) : n ≤ cs.length := by
  simp only [rawLength] at h
  split at h
  · obtain rfl := Option.some.inj h
    omega
  · simp at h

inductive Found (c : Char) (cs : List Char) : Class → Nat → Prop
  | newline (hc : c = '\n') : Found c cs .newline 0
  | blank (hc : isBlank c = true) : Found c cs .blank (runLength isBlank cs)
  | line (hc : c = '/') (hh : cs.head? = some '/') :
      Found c cs .comment (runLength (fun c => decide (c ≠ '\n')) cs)
  | block {n : Nat} (hc : c = '/') (hh : cs.head? = some '*') (hn : blockLength cs.tail = some n) :
      Found c cs .comment (n + 1)
  | number (hc : isPlain c = true) :
      Found c cs (.lexeme (.number (String.ofList (c :: cs.take (numberLength c cs)))))
        (numberLength c cs)
  | word (hc : isWordStart c = true) :
      Found c cs (.lexeme (.ofWord (String.ofList (c :: cs.take (runLength isWord cs)))))
        (runLength isWord cs)
  | literal {make : String → Lexeme} {n : Nat} (hm : make = .rune ∨ make = .string)
      (hc : c = '\'' ∨ c = '"') (hn : literalLength c cs = some n) :
      Found c cs (.lexeme (make (String.ofList (c :: cs.take n)))) n
  | raw {n : Nat} (hc : c = '\x60') (hn : rawLength cs = some n) :
      Found c cs (.lexeme (.string (String.ofList (c :: cs.take n)))) n
  | semicolon (hc : c = ';') : Found c cs (.lexeme (.semicolon true)) 0
  | operator {o : Operator} (ho : Operator.ofHead? (c :: cs) = some o)
      (hs : c = '/' → cs.head? ≠ some '/' ∧ cs.head? ≠ some '*') :
      Found c cs (.lexeme (.op o)) (o.chars.length - 1)

lemma found_literal {c : Char} {cs : List Char} {make : String → Lexeme} {o : Option Nat} {k : Class}
    {n : Nat} (h : literal c cs make o = .ok ⟨k, n⟩) :
    o = some n ∧ k = .lexeme (make (String.ofList (c :: cs.take n))) := by
  cases o with
  | none => simp [literal] at h
  | some more =>
    simp only [literal, token, Except.ok.injEq, Item.mk.injEq] at h
    obtain ⟨rfl, rfl⟩ := h
    exact ⟨rfl, rfl⟩

lemma isPlain_of_startsNumber {c : Char} {cs : List Char} (h : startsNumber c cs = true) :
    isPlain c = true := by
  apply isPlain_of_ne (p := fun c => c.isDigit || c = '.') (by decide)
  simp only [startsNumber, Bool.or_eq_true, Bool.and_eq_true] at h ⊢
  exact h.imp id And.left

lemma first_found {c : Char} {cs : List Char} {k : Class} {n : Nat}
    (h : first c cs = .ok ⟨k, n⟩) : Found c cs k n := by
  unfold first at h
  by_cases hc : c = '\n'
  · rw [if_pos hc] at h
    cases h
    exact .newline hc
  rw [if_neg hc] at h
  by_cases hc : isBlank c = true
  · rw [if_pos hc] at h
    cases h
    exact .blank hc
  rw [if_neg hc] at h
  by_cases hl : (decide (c = '/') && decide (cs.head? = some '/')) = true
  · rw [if_pos hl] at h
    cases h
    simp only [Bool.and_eq_true, decide_eq_true_eq] at hl
    exact .line hl.1 hl.2
  rw [if_neg hl] at h
  by_cases hb : (decide (c = '/') && decide (cs.head? = some '*')) = true
  · rw [if_pos hb] at h
    simp only [Bool.and_eq_true, decide_eq_true_eq] at hb
    split at h
    · next n hn =>
      cases h
      exact .block hb.1 hb.2 hn
    · cases h
  rw [if_neg hb] at h
  by_cases hs : startsNumber c cs = true
  · rw [if_pos hs] at h
    cases h
    exact .number (isPlain_of_startsNumber hs)
  rw [if_neg hs] at h
  by_cases hs : isWordStart c = true
  · rw [if_pos hs] at h
    cases h
    exact .word hs
  rw [if_neg hs] at h
  by_cases hc : c = '\''
  · rw [if_pos hc] at h
    obtain ⟨ho, rfl⟩ := found_literal h
    unfold runeLength at ho
    split at ho
    · cases ho
    · exact .literal (.inl rfl) (.inl hc) (hc ▸ ho)
  rw [if_neg hc] at h
  by_cases hc : c = '"'
  · rw [if_pos hc] at h
    obtain ⟨ho, rfl⟩ := found_literal h
    exact .literal (.inr rfl) (.inr hc) (hc ▸ ho)
  rw [if_neg hc] at h
  by_cases hc : c = '\x60'
  · rw [if_pos hc] at h
    obtain ⟨ho, rfl⟩ := found_literal h
    exact .raw hc ho
  rw [if_neg hc] at h
  by_cases hc : c = ';'
  · rw [if_pos hc] at h
    cases h
    exact .semicolon hc
  rw [if_neg hc] at h
  unfold operator at h
  split at h
  · next o ho =>
    cases h
    refine .operator ho fun hc => ?_
    simpa [hc] using And.intro hl hb
  · cases h

lemma eq_newline_of_first {c : Char} {cs : List Char} {n : Nat}
    (h : first c cs = .ok ⟨.newline, n⟩) : c = '\n' ∧ n = 0 := by
  generalize hk : Class.newline = k at h
  cases first_found h with
  | newline hc => exact ⟨hc, rfl⟩
  | _ => simp at hk

lemma first_more_le {c : Char} {cs : List Char} {k : Class} {n : Nat} (h : first c cs = .ok ⟨k, n⟩) :
    n ≤ cs.length := by
  cases first_found h with
  | newline | semicolon => exact Nat.zero_le _
  | blank | line | word => exact runLength_le _ _
  | number => exact (taken_numberLength c cs).1
  | literal _ _ hn => exact literalLength_le hn
  | raw _ hn => exact rawLength_le hn
  | @block n hc hh hn =>
    obtain ⟨cs, rfl⟩ := List.head?_eq_some_iff.1 hh
    simpa using blockLength_le hn
  | operator ho =>
    have hp := List.find?_some ho
    rw [List.isPrefixOf_iff_prefix] at hp
    have := hp.length_le
    rw [List.length_cons] at this
    omega

end ParallelTests.Scan
