import ParallelTests.Proofs.Scan.Strung

/-!
A source and a copy of it, read side by side. The copy has the lexemes of the source in their order,
with others behind some of them, and between two lexemes of the source it has a semicolon only if the
source has one; where a line end would give one, it has one if the source has.
-/

namespace ParallelTests.Scan

namespace Sign

def isGap : Sign → Bool
  | newline => true
  | lexeme (.semicolon _) => true
  | lexeme _ => false

def ends (pending : Bool) : Sign → Bool
  | newline => pending
  | lexeme (.semicolon _) => true
  | lexeme _ => false

end Sign

lemma Mark.signs_of_isGap (m : Mark) (h : m.isGap = true) (pending : Bool) :
    (∀ g ∈ m.signs, g.isGap = true) ∧ m.signs.any (·.ends pending) = m.ends pending := by
  cases m with
  | newline => simp [signs, Sign.isGap, Sign.ends, ends, breaks]
  | remark text =>
    cases hc : text.contains '\n' <;>
      simp only [signs, Class.signs, ends, breaks, hc] <;> simp [Sign.isGap, Sign.ends]
  | lexeme start l => cases l <;> simp_all [signs, isGap, Sign.isGap, Sign.ends, ends]

end ParallelTests.Scan

namespace ParallelTests

open Scan

def Lexeme.isSemicolon : Lexeme → Bool
  | semicolon _ => true
  | _ => false

structure Stand where
  last : Option Lexeme
  source : Bool
  copy : Bool
  deriving DecidableEq, Repr

namespace Stand

def after (l : Lexeme) : Stand := ⟨some l, false, false⟩

def free : Stand := ⟨none, false, false⟩

def pending (s : Stand) : Bool := s.last.any Lexeme.endsLine

def read (s : Stand) (ended : Bool) : Stand := { s with source := s.source || ended }

def write (s : Stand) (ended : Bool) : Stand := { s with copy := s.copy || ended }

def Fit (s : Stand) : Prop :=
  s.last ≠ none → (s.copy = true → s.source = true) ∧
    (s.pending = true → s.source = true → s.copy = true)

@[simp] lemma pending_write (s : Stand) (e : Bool) : (s.write e).pending = s.pending := rfl

lemma fit_after (l : Lexeme) : (after l).Fit := by
  simp [Fit, after]

lemma fit_free : free.Fit := by
  simp [Fit, free]

lemma Fit.both {s : Stand} (h : s.Fit) (e : Bool) : ((s.read e).write e).Fit := by
  intro hl
  obtain ⟨h₁, h₂⟩ := h hl
  cases e <;> simp_all [read, write, pending]

def Loose (s : Stand) : Prop :=
  s.last ≠ none → (s.copy = true → s.source = true ∨ s.pending = true) ∧
    (s.pending = true → s.source = true → s.copy = true)

lemma Fit.loose {s : Stand} (h : s.Fit) : s.Loose :=
  fun hl => ⟨fun hc => .inl ((h hl).1 hc), (h hl).2⟩

lemma Loose.newlines {s : Stand} (h : s.Loose) (some_ : Bool) :
    (s.write (some_ && s.pending)).Loose := by
  intro hl
  obtain ⟨h₁, h₂⟩ := h hl
  cases some_ <;> cases hp : s.pending <;> simp_all [write, pending]

lemma fit_of_ended {s : Stand} (hs : s.source = true) (hc : s.pending = true → s.copy = true) :
    s.Fit :=
  fun _ => ⟨fun _ => hs, fun hp _ => hc hp⟩

lemma Loose.fit {s : Stand} (h : s.Loose) (hp : s.pending = false) (e : Bool) : (s.read e).Fit := by
  intro hl
  obtain ⟨h₁, h₂⟩ := h hl
  cases e <;> simp_all [read, pending]

end Stand

def words (ss : List Sign) : List Lexeme :=
  ss.filterMap fun
    | .newline => none
    | .lexeme l => if l.isSemicolon then none else some l

inductive Kept (extra : Nat → List Lexeme) : Stand → List Mark → List Sign → Stand → Prop
  | refl {s : Stand} : Kept extra s [] [] s
  | source {s s' : Stand} {m : Mark} {ms : List Mark} {ss : List Sign} (hm : m.isGap = true)
      (h : Kept extra (s.read (m.ends s.pending)) ms ss s') : Kept extra s (m :: ms) ss s'
  | copy {s s' : Stand} {g : Sign} {ms : List Mark} {ss : List Sign} (hg : g.isGap = true)
      (h : Kept extra (s.write (g.ends s.pending)) ms ss s') : Kept extra s ms (g :: ss) s'
  | lexeme {s s' : Stand} {start : Nat} {l : Lexeme} {ms : List Mark} {ss : List Sign}
      (hl : l.isSemicolon = false) (he : extra start = [])
      (hf : s.Fit ∨ l = .op (.closing .curly)) (h : Kept extra (.after l) ms ss s') :
      Kept extra s (.lexeme start l :: ms) (.lexeme l :: ss) s'
  | insert {s s' : Stand} {start : Nat} {xs : List Sign} {ms : List Mark} {ss : List Sign}
      (hne : extra start ≠ []) (hx : words xs = extra start) (hf : s.Fit)
      (h : Kept extra .free ms ss s') :
      Kept extra s (.lexeme start (.op (.opening .curly)) :: ms)
        (.lexeme (.op (.opening .curly)) :: (xs ++ ss)) s'

namespace Kept

variable {extra : Nat → List Lexeme} {s s' s'' : Stand} {ms ns : List Mark} {ss ts : List Sign}

lemma trans (h : Kept extra s ms ss s') (h' : Kept extra s' ns ts s'') :
    Kept extra s (ms ++ ns) (ss ++ ts) s'' := by
  induction h with
  | refl => exact h'
  | source hm _ ih => exact .source hm (ih h')
  | copy hg _ ih => exact .copy hg (ih h')
  | lexeme hl he hf _ ih => exact .lexeme hl he hf (ih h')
  | insert hne hx hf _ ih =>
    rw [List.cons_append, List.cons_append, List.append_assoc]
    exact .insert hne hx hf (ih h')

lemma gap (h : ∀ m ∈ ms, m.isGap = true) :
    Kept extra s ms [] (s.read (ms.any (·.ends s.pending))) := by
  induction ms generalizing s with
  | nil => simpa [Stand.read] using Kept.refl
  | cons m ms ih =>
    refine .source (h m (by simp)) ?_
    have := ih (s := s.read (m.ends s.pending)) fun m hm => h m (by simp [hm])
    simpa [Stand.read, Stand.pending, Bool.or_assoc] using this

lemma signs (h : ∀ g ∈ ss, g.isGap = true) :
    Kept extra s [] ss (s.write (ss.any (·.ends s.pending))) := by
  induction ss generalizing s with
  | nil => simpa [Stand.write] using Kept.refl
  | cons g ss ih =>
    refine .copy (h g (by simp)) ?_
    have := ih (s := s.write (g.ends s.pending)) fun g hg => h g (by simp [hg])
    simpa [Stand.write, Stand.pending, Bool.or_assoc] using this

lemma newlines (n : Nat) :
    Kept extra s [] (List.replicate n .newline) (s.write (decide (0 < n) && s.pending)) := by
  have h : (List.replicate n Sign.newline).any (·.ends s.pending) =
      (decide (0 < n) && s.pending) := by
    cases n <;> simp [Sign.ends]
  rw [← h]
  exact .signs (by simp [Sign.isGap])

lemma verbatim_gap {m : Mark} (hm : m.isGap = true) (hs : s.Fit) :
    ∃ s', Kept extra s [m] m.signs s' ∧ s'.Fit := by
  obtain ⟨hg, he⟩ := m.signs_of_isGap hm s.pending
  refine ⟨(s.read (m.ends s.pending)).write (m.ends s.pending), .source hm ?_, hs.both _⟩
  rw [← he]
  exact .signs hg

lemma verbatim (he : ∀ start l, Mark.lexeme start l ∈ ms → extra start = []) (hs : s.Fit) :
    ∃ s', Kept extra s ms (ms.flatMap Mark.signs) s' ∧ s'.Fit := by
  induction ms generalizing s with
  | nil => exact ⟨s, .refl, hs⟩
  | cons m ms ih =>
    have he' : ∀ start l, Mark.lexeme start l ∈ ms → extra start = [] :=
      fun start l h => he start l (by simp [h])
    cases hg : m.isGap with
    | true =>
      obtain ⟨s₁, h₁, hf₁⟩ : ∃ s₁, Kept extra s [m] m.signs s₁ ∧ s₁.Fit := verbatim_gap hg hs
      obtain ⟨s₂, h₂, hf₂⟩ := ih he' hf₁
      exact ⟨s₂, h₁.trans h₂, hf₂⟩
    | false =>
      obtain ⟨start, l, rfl, hl⟩ : ∃ start l, m = .lexeme start l ∧ l.isSemicolon = false := by
        cases m with
        | lexeme start l => exact ⟨start, l, rfl, by cases l <;> simp_all [Mark.isGap, Lexeme.isSemicolon]⟩
        | _ => simp [Mark.isGap] at hg
      obtain ⟨s₂, h₂, hf₂⟩ := ih he' (Stand.fit_after l)
      exact ⟨s₂, .lexeme hl (he start l (by simp)) (.inl hs) h₂, hf₂⟩

lemma last_of_nil (h : Kept extra s [] ss s') : s'.last = s.last := by
  generalize hn : [] = ns at h
  induction h with
  | refl => rfl
  | copy _ _ ih => exact ih hn
  | _ => simp at hn

lemma last_of_concat {start : Nat} {l : Lexeme} (hl : l.isSemicolon = false)
    (h : Kept extra s (ms ++ [.lexeme start l]) ss s') : s'.last = some l ∨ s'.last = none := by
  generalize hn : ms ++ [.lexeme start l] = ns at h
  induction h generalizing ms with
  | refl => simp at hn
  | copy _ _ ih => exact ih hn
  | source hm _ ih =>
    cases ms with
    | nil =>
      obtain ⟨rfl, _⟩ := List.cons.inj hn
      cases l <;> simp_all [Mark.isGap, Lexeme.isSemicolon]
    | cons m ms => exact ih (List.cons.inj hn).2
  | lexeme _ _ _ h ih =>
    cases ms with
    | nil =>
      obtain ⟨hm, rfl⟩ := List.cons.inj hn
      obtain ⟨_, rfl⟩ := Mark.lexeme.inj hm
      exact .inl h.last_of_nil
    | cons m ms => exact ih (List.cons.inj hn).2
  | insert _ _ _ h ih =>
    cases ms with
    | nil =>
      obtain ⟨_, rfl⟩ := List.cons.inj hn
      exact .inr h.last_of_nil
    | cons m ms => exact ih (List.cons.inj hn).2

end Kept

def Scan.Mark.words (extra : Nat → List Lexeme) : Mark → List Lexeme
  | .lexeme start l => if l.isSemicolon then [] else l :: extra start
  | _ => []

lemma words_append (ss ts : List Sign) : words (ss ++ ts) = words ss ++ words ts :=
  List.filterMap_append

lemma Kept.words_eq {extra : Nat → List Lexeme} {s s' : Stand} {ms : List Mark} {ss : List Sign}
    (h : Kept extra s ms ss s') : words ss = ms.flatMap (Mark.words extra) := by
  induction h with
  | refl => rfl
  | @source _ _ m _ _ hm _ ih =>
    have : m.words extra = [] := by
      cases m with
      | lexeme start l => cases l <;> simp_all [Mark.isGap, Mark.words, Lexeme.isSemicolon]
      | _ => rfl
    rw [List.flatMap_cons, this, ih, List.nil_append]
  | @copy _ _ g _ ss hg _ ih =>
    rw [← ih, ← List.singleton_append, words_append]
    cases g with
    | newline => rfl
    | lexeme l => cases l <;> simp_all [Sign.isGap, words, Lexeme.isSemicolon]
  | lexeme hl he _ _ ih => simp [words, Mark.words, hl, he, ← ih]
  | insert _ hx _ _ ih =>
    rw [← List.singleton_append, words_append, words_append, hx, ih]
    rfl

end ParallelTests
