import ParallelTests.Proofs.Layout.Laid
import ParallelTests.Proofs.Print.Written

namespace ParallelTests.Printer

open Scan

variable {src : List Char} {extra : Nat → List Lexeme} {a b m : Nat}

def Keeps (extra : Nat → List Lexeme) (ms : List Mark) (ss : List Sign) : Prop :=
  ∀ s : Stand, s.Fit → ∃ s', Kept extra s ms ss s' ∧ s'.Fit

def KeepsLine (extra : Nat → List Lexeme) (ms : List Mark) (ss : List Sign) : Prop :=
  ∀ s : Stand, s.Fit → ∃ s', Kept extra s ms ss s' ∧ s'.Loose

def KeepsBehind (extra : Nat → List Lexeme) (last : Lexeme) (ms : List Mark) (ss : List Sign) : Prop :=
  ∀ s : Stand, s.Loose → (s.last = some last ∨ s.last = none) →
    ∃ s', Kept extra s ms ss s' ∧ ((∀ m ∈ ms.getLast?, m.isGap = false) → s'.Loose)

def Prints (src : List Char) (extra : Nat → List Lexeme) (a b : Nat) (w : List Char) : Prop :=
  ∃ ms ss, Reach src a ms b ∧ Says src a b w ss ∧ Keeps extra ms ss

def PrintsLine (src : List Char) (extra : Nat → List Lexeme) (a b : Nat) (w : List Char) : Prop :=
  ∃ ms ss, Reach src a ms b ∧
    (∀ rest, signs (w ++ rest) = (signs ('\n' :: rest)).map (ss ++ ·)) ∧ KeepsLine extra ms ss

def PrintsLines (src : List Char) (extra : Nat → List Lexeme) (last : Lexeme) (a b : Nat)
    (w : List Char) : Prop :=
  ∃ ms ss, Reach src a ms b ∧
    (∀ rest, signs ('\n' :: (w ++ rest)) = (signs ('\n' :: rest)).map (ss ++ ·)) ∧
      KeepsBehind extra last ms ss

def PrintsRow (src : List Char) (extra : Nat → List Lexeme) (fresh : Bool) (last : Lexeme) (a b : Nat)
    (w : List Char) : Prop :=
  ∃ ms ss, Reach src a ms b ∧
    (∀ rest, Stops rest → signs (w ++ rest) = (signs rest).map (ss ++ ·)) ∧
      (fresh = false → ∀ rest, Stops rest → Stops (w ++ rest)) ∧ KeepsBehind extra last ms ss

lemma Keeps.nil : Keeps extra [] [] :=
  fun s hs => ⟨s, .refl, hs⟩

lemma Keeps.trans {ms ns : List Mark} {ss ts : List Sign} (h : Keeps extra ms ss)
    (h' : Keeps extra ns ts) : Keeps extra (ms ++ ns) (ss ++ ts) := by
  intro s hs
  obtain ⟨s₁, h₁, hf₁⟩ := h s hs
  obtain ⟨s₂, h₂, hf₂⟩ := h' s₁ hf₁
  exact ⟨s₂, h₁.trans h₂, hf₂⟩

lemma Prints.nil (h : a ≤ src.length) : Prints src extra a a [] :=
  ⟨[], [], .refl h, .nil, .nil⟩

lemma Prints.trans {x y : List Char} (h : Prints src extra a m x) (h' : Prints src extra m b y) :
    Prints src extra a b (x ++ y) := by
  obtain ⟨ms, ss, hr, hs, hk⟩ := h
  obtain ⟨ns, ts, hr', hs', hk'⟩ := h'
  exact ⟨ms ++ ns, ss ++ ts, hr.trans hr', hs.trans hs', hk.trans hk'⟩

lemma Prints.lines {old new : List Char} (hold : ∀ c ∈ old, isBlank c = true)
    (hnew : ∀ c ∈ new, isBlank c = true) (ha : Sync src a) {ms : List Mark} (hr : Reach src a ms b)
    (he : ∀ o, a ≤ o → o < b → extra o = []) :
    Prints src extra a b (Rebase.lines old new none (cut src a b)) := by
  refine ⟨ms, ms.flatMap Mark.signs, hr, says_lines hold hnew ha hr, fun s hs => ?_⟩
  refine Kept.verbatim (fun start l hm => ?_) hs
  obtain ⟨h₁, h₂⟩ := hr.start_mem hm
  exact he start h₁ h₂

def LexemeEnd (src : List Char) (b : Nat) : Prop :=
  ∃ ms start l, l.isSemicolon = false ∧ Reach src 0 (ms ++ [.lexeme start l]) b

lemma LexemeEnd.of_sync {ms : List Mark} {start : Nat} {l : Lexeme} (h : Sync src a)
    (hl : l.isSemicolon = false) (hr : Reach src a (ms ++ [.lexeme start l]) b) :
    LexemeEnd src b := by
  obtain ⟨ns, hn⟩ := h
  exact ⟨ns ++ ms, start, l, hl, by simpa using hn.trans hr⟩

lemma Prints.signs {w : List Char} (h : Prints src extra a b w) (hb : LexemeEnd src b) :
    ∃ ms ss, Reach src a ms b ∧ Keeps extra ms ss ∧
      ∀ rest, Stops rest → signs (w ++ rest) = (signs rest).map (ss ++ ·) := by
  obtain ⟨ms, ss, hr, hs, hk⟩ := h
  obtain ⟨ns, start, l, _, hn⟩ := hb
  exact ⟨ms, ss, hr, hk, fun rest hrest => (hs rest (.of_stops hn hrest)).1⟩

end ParallelTests.Printer
