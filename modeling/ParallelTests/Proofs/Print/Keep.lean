import ParallelTests.Proofs.Print.Prints

namespace ParallelTests.Printer

open Scan

variable {src : List Char} {extra : Nat → List Lexeme} {a b start : Nat} {last last' : Lexeme}
  {ms ns gap : List Mark} {pre ss ts : List Sign}

lemma Keeps.line (h : Keeps extra ms ss) : KeepsLine extra ms ss := by
  intro s hs
  obtain ⟨s', hk, hf⟩ := h s hs
  exact ⟨s', hk, hf.loose⟩

lemma KeepsLine.newlines (h : KeepsLine extra ms ss) (n : Nat) :
    KeepsLine extra ms (ss ++ List.replicate n .newline) := by
  intro s hs
  obtain ⟨s', hk, hl⟩ := h s hs
  exact ⟨_, by simpa using hk.trans (.newlines n), hl.newlines _⟩

lemma KeepsBehind.newlines (h : KeepsBehind extra last ms ss) (n : Nat) :
    KeepsBehind extra last ms (List.replicate n .newline ++ ss) := by
  intro s hs hlast
  obtain ⟨s', hk, hl⟩ := h _ (hs.newlines (decide (0 < n))) hlast
  exact ⟨s', (Kept.newlines n).trans hk, hl⟩

lemma KeepsBehind.append_newlines (h : KeepsBehind extra last ms ss) (n : Nat) :
    KeepsBehind extra last ms (ss ++ List.replicate n .newline) := by
  intro s hs hlast
  obtain ⟨s', hk, hl⟩ := h s hs hlast
  exact ⟨_, by simpa using hk.trans (.newlines n), fun hm => (hl hm).newlines _⟩

lemma keepsBehind_gap (hg : ∀ m ∈ gap, m.isGap = true) : KeepsBehind extra last gap [] := by
  intro s hs _
  refine ⟨_, .gap hg, fun hm => ?_⟩
  cases hl : gap.getLast? with
  | none =>
    obtain rfl := List.getLast?_eq_none_iff.1 hl
    simpa [Stand.read] using hs
  | some m =>
    have := hg m (List.mem_of_getLast? hl)
    rw [hm m hl] at this
    simp at this

def Opens (extra : Nat → List Lexeme) (last : Lexeme) (gap : List Mark) (pre : List Sign) : Prop :=
  ∀ s : Stand, s.Loose → (s.last = some last ∨ s.last = none) → ∃ s', Kept extra s gap pre s' ∧ s'.Fit

lemma opens_newlines {fresh : Bool} (hg : ∀ m ∈ gap, m.isGap = true)
    (hend : if fresh then last.endsLine = false else ∃ m ∈ gap, m.ends last.endsLine = true)
    (n : Nat) : Opens extra last gap (List.replicate (n + 1) .newline) := by
  intro s hs hlast
  have hk : Kept extra s _ _ _ := (Kept.newlines (s := s) (n + 1)).trans (.gap hg)
  rw [List.nil_append, List.append_nil] at hk
  refine ⟨_, hk, ?_⟩
  rcases hlast with hlast | hlast
  · have hp : s.pending = last.endsLine := by simp [Stand.pending, hlast]
    cases fresh with
    | true => exact (hs.newlines _).fit (by simpa [hp] using hend) _
    | false =>
      have hany : gap.any (·.ends s.pending) = true := by
        obtain ⟨m, hm, he⟩ := hend
        exact List.any_eq_true.2 ⟨m, hm, hp ▸ he⟩
      refine Stand.fit_of_ended ?_ fun h => ?_
      · simp [Stand.read, Stand.write, Stand.pending] at hany ⊢
        exact .inr hany
      · have : s.pending = true := h
        simp [Stand.read, Stand.write, this]
  · intro h
    exact absurd hlast h

lemma opens_row {fresh : Bool} (hg : ∀ m ∈ gap, m.isGap = true)
    (hend : if fresh then last.endsLine = false else ∃ m ∈ gap, m.ends last.endsLine = true) :
    Opens extra last gap (if fresh then [] else [.lexeme (.semicolon true)]) := by
  intro s hs hlast
  cases fresh with
  | true =>
    refine ⟨_, .gap hg, ?_⟩
    rcases hlast with hlast | hlast
    · exact hs.fit (by simpa [Stand.pending, hlast] using hend) _
    · exact fun h => absurd hlast h
  | false =>
    refine ⟨_, .copy rfl (.gap hg), ?_⟩
    rcases hlast with hlast | hlast
    · have hp : s.pending = last.endsLine := by simp [Stand.pending, hlast]
      have hany : gap.any (·.ends s.pending) = true := by
        obtain ⟨m, hm, he⟩ := hend
        exact List.any_eq_true.2 ⟨m, hm, hp ▸ he⟩
      refine Stand.fit_of_ended ?_ fun _ => ?_
      · simp [Stand.read, Stand.write, Stand.pending] at hany ⊢
        exact .inr hany
      · simp [Stand.read, Stand.write, Sign.ends]
    · exact fun h => absurd hlast h

lemma KeepsBehind.stmt (ho : Opens extra last gap pre) (hlast : last'.isSemicolon = false)
    (hk : KeepsLine extra (ms ++ [.lexeme start last']) ss) (hr : KeepsBehind extra last' ns ts) :
    KeepsBehind extra last (gap ++ (ms ++ [.lexeme start last'] ++ ns)) (pre ++ (ss ++ ts)) := by
  intro s hs hl
  obtain ⟨s₁, h₁, hf₁⟩ := ho s hs hl
  obtain ⟨s₂, h₂, hl₂⟩ := hk s₁ hf₁
  obtain ⟨s₃, h₃, hl₃⟩ := hr s₂ hl₂ (h₂.last_of_concat hlast)
  refine ⟨s₃, h₁.trans (h₂.trans h₃), fun hm => hl₃ fun m hmem => hm m ?_⟩
  have hn : ns ≠ [] := by
    rintro rfl
    simp at hmem
  rw [← List.append_assoc, List.getLast?_append, Option.mem_def.1 hmem]
  rfl

end ParallelTests.Printer
