import Mathlib.Tactic.Common
import ParallelTests.Token.Scan

/-!
What may follow an item without changing it. A stop goes on with no lexeme, so an item stays as it
is when the text some way behind it is replaced by one that starts with a stop.
-/

namespace ParallelTests.Scan

open Text

def isStop (c : Char) : Bool :=
  isBlank c || c = '\n' || c = ';' || c = ':' || c = '{' || c = '}'

def Stops (cs : List Char) : Prop := ∀ c ∈ cs.head?, isStop c = true

lemma stops_nil : Stops [] := by
  simp [Stops]

lemma stops_cons {c : Char} {cs : List Char} (h : isStop c = true) : Stops (c :: cs) := by
  simpa [Stops] using h

lemma eq_of_isStop {c : Char} (h : isStop c = true) :
    c = ' ' ∨ c = '\t' ∨ c = '\r' ∨ c = '\x0c' ∨ c = '\x0b' ∨ c = '\n' ∨ c = ';' ∨ c = ':' ∨
      c = '{' ∨ c = '}' := by
  simpa only [isStop, isBlank, Bool.or_eq_true, decide_eq_true_eq, or_assoc] using h

def misses (p : Char → Bool) (cs : List Char) : Bool :=
  cs.all fun c => !p c

lemma not_of_misses {p : Char → Bool} {cs : List Char} (h : misses p cs = true) {c : Char}
    (hc : c ∈ cs) : p c = false := by
  simpa using List.all_eq_true.1 h c hc

lemma not_of_isStop {p : Char → Bool}
    (hp : misses p [' ', '\t', '\r', '\x0c', '\x0b', '\n', ';', ':', '{', '}'] = true)
    {c : Char} (h : isStop c = true) : p c = false := by
  apply not_of_misses hp
  rcases eq_of_isStop h with rfl | rfl | rfl | rfl | rfl | rfl | rfl | rfl | rfl | rfl <;> simp

def Settled (f : List Char → Nat) : Prop :=
  ∀ x u v w : List Char, Stops w → f (x ++ (u ++ v)) = x.length → f (x ++ (u ++ w)) = x.length

lemma head_of_stops {p : Char → Bool} (hp : ∀ c, isStop c = true → p c = false)
    {u v w : List Char} (hw : Stops w) (h : ∀ c ∈ (u ++ v).head?, p c = false) :
    ∀ c ∈ (u ++ w).head?, p c = false := by
  cases u with
  | nil => exact fun c hc => hp c (hw c hc)
  | cons d u => simpa using h

lemma runLength_append_iff {p : Char → Bool} {x y : List Char} :
    runLength p (x ++ y) = x.length ↔ (∀ c ∈ x, p c = true) ∧ ∀ c ∈ y.head?, p c = false := by
  induction x with
  | nil =>
    cases y with
    | nil => simp [runLength]
    | cons c y => cases h : p c <;> simp [runLength, h]
  | cons c x ih =>
    simp only [runLength, List.cons_append] at *
    cases h : p c <;> simp [h, ih]

lemma settled_runLength {p : Char → Bool} (hp : ∀ c, isStop c = true → p c = false) :
    Settled (runLength p) := by
  intro x u v w hw h
  rw [runLength_append_iff] at *
  exact ⟨h.1, head_of_stops hp hw h.2⟩

lemma Settled.then {f g : List Char → Nat} (hf : Settled f) (hg : Settled g) :
    Settled fun cs => f cs + g (cs.drop (f cs)) := by
  intro x u v w hw h
  simp only at *
  obtain ⟨x₁, x₂, rfl, h₁⟩ : ∃ x₁ x₂, x = x₁ ++ x₂ ∧ f (x ++ (u ++ v)) = x₁.length :=
    ⟨x.take (f (x ++ (u ++ v))), x.drop (f (x ++ (u ++ v))), by simp, by simp; omega⟩
  have h₂ : f (x₁ ++ ((x₂ ++ u) ++ v)) = x₁.length := by simpa using h₁
  have h₃ := hf x₁ (x₂ ++ u) v w hw h₂
  simp only [List.append_assoc] at h₁ h₃ h ⊢
  rw [h₁, List.drop_left, List.length_append] at h
  rw [h₃, List.drop_left, hg x₂ u v w hw (by omega), List.length_append]

end ParallelTests.Scan
