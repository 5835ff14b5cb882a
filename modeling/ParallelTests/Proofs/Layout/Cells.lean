import ParallelTests.Proofs.Layout.Kept

namespace ParallelTests

open Scan

def cells (split : Bool) : List Lexeme → List (Bool × Lexeme)
  | [] => []
  | l :: ls => if l.isSemicolon then cells true ls else (split, l) :: cells false ls

inductive Matches : Option Lexeme → List (Bool × Lexeme) → List (Bool × Lexeme) → Prop
  | nil {last : Option Lexeme} : Matches last [] []
  | cons {last : Option Lexeme} {l : Lexeme} {split split' : Bool} {cs ds : List (Bool × Lexeme)}
      (h : last ≠ none → l ≠ .op (.closing .curly) →
        (split' = true → split = true) ∧
          (last.any Lexeme.endsLine = true → split = true → split' = true))
      (hs : Matches (some l) cs ds) : Matches last ((split, l) :: cs) ((split', l) :: ds)

namespace Matches

variable {last : Option Lexeme} {cs ds : List (Bool × Lexeme)}

lemma lexemes_eq (h : Matches last cs ds) : ds.map Prod.snd = cs.map Prod.snd := by
  induction h with
  | nil => rfl
  | cons _ _ ih => rw [List.map_cons, List.map_cons, ih]

lemma splits (h : Matches last cs ds) {i : Nat} {e e₁ e' : Bool} {u v v' : Lexeme}
    (hu : cs[i]? = some (e₁, u)) (hv : cs[i + 1]? = some (e, v)) (hv' : ds[i + 1]? = some (e', v'))
    (hn : v ≠ .op (.closing .curly)) :
    (e' = true → e = true) ∧ (u.endsLine = true → e = true → e' = true) := by
  induction h generalizing i with
  | nil => simp at hu
  | cons _ hs ih =>
    cases i with
    | zero =>
      obtain ⟨_, rfl⟩ := Prod.mk.inj (Option.some.inj hu)
      cases hs with
      | nil => simp at hv
      | cons h _ =>
        obtain ⟨rfl, rfl⟩ := Prod.mk.inj (Option.some.inj hv)
        obtain ⟨rfl, rfl⟩ := Prod.mk.inj (Option.some.inj hv')
        exact h (by simp) hn
    | succ i => exact ih hu hv hv'

end Matches

lemma cells_settle_gap (pending b : Bool) {gs : List Sign} (hg : ∀ g ∈ gs, g.isGap = true)
    (ss : List Sign) : cells b (settle (pending && !b) (gs ++ ss)) =
      cells (b || gs.any (·.ends pending))
        (settle (pending && !(b || gs.any (·.ends pending))) ss) := by
  induction gs generalizing b with
  | nil => simp
  | cons g gs ih =>
    have ih' := ih (b || g.ends pending) fun g hg' => hg g (by simp [hg'])
    rw [List.any_cons, ← Bool.or_assoc, ← ih', List.cons_append]
    cases g with
    | newline => cases b <;> cases pending <;> simp [settle, Sign.ends, cells, Lexeme.isSemicolon]
    | lexeme l =>
      cases l with
      | semicolon w => simp [settle, Sign.ends, cells, Lexeme.isSemicolon, Lexeme.endsLine]
      | _ => simp [Sign.isGap] at hg

lemma Kept.matches {extra : Nat → List Lexeme} (hx : ∀ start, extra start = []) {s s' : Stand}
    {ms : List Mark} {ss : List Sign} (h : Kept extra s ms ss s') :
    Matches s.last (cells s.source (settle (s.pending && !s.source) (ms.flatMap Mark.signs)))
      (cells s.copy (settle (s.pending && !s.copy) ss)) := by
  induction h with
  | @refl s =>
    have hn (b : Bool) : cells b (settle (s.pending && !b) []) = [] := by
      cases s.pending <;> cases b <;> simp [settle, cells, Lexeme.isSemicolon]
    simpa only [List.flatMap_nil, hn] using Matches.nil
  | @source s _ m ms ss hm _ ih =>
    obtain ⟨hg, he⟩ := m.signs_of_isGap hm s.pending
    rw [List.flatMap_cons, cells_settle_gap _ _ hg, he]
    exact ih
  | @copy s _ g ms ss hg _ ih =>
    have hg' : ∀ x ∈ [g], x.isGap = true := by simpa using hg
    have := cells_settle_gap s.pending s.copy hg' ss
    rw [List.singleton_append, List.any_cons, List.any_nil, Bool.or_false] at this
    rw [this]
    exact ih
  | @lexeme s _ start l ms ss hl _ hf _ ih =>
    rw [List.flatMap_cons]
    simp only [Mark.signs, List.singleton_append, settle, cells, hl]
    refine .cons (fun hlast hn => ?_) (by simpa [Stand.after, Stand.pending] using ih)
    exact (hf.resolve_right hn) hlast
  | insert hne => exact absurd (hx _) hne

end ParallelTests
