import ParallelTests.Proofs.Scan.Lines
import ParallelTests.Proofs.Scan.Remarks

namespace ParallelTests.Scan

open Rebase

inductive Note : Bool → List Char → Prop
  | block {text : List Char} (h : IsBlock text) : Note true text
  | line {text : List Char} (h : IsLine text) : Note false text
  | more {closed : Bool} {text next : List Char} (h : Note true text) (h' : Note closed next) :
      Note closed (text ++ ' ' :: next)

lemma Note.of_isRemark {text : String} (h : IsRemark text) : ∃ closed, Note closed text.toList := by
  rcases h with h | h
  · exact ⟨true, .block h⟩
  · exact ⟨false, .line h⟩

lemma Note.signs {closed : Bool} {text : List Char} (h : Note closed text) :
    ∃ n, ∀ rest, closed = true ∨ EndsLine rest →
      signs (text ++ rest) = (signs rest).map (List.replicate n .newline ++ ·) := by
  have hs (text : List Char) : ∃ n, Class.comment.signs text = List.replicate n .newline := by
    simp only [Class.signs]
    split
    · exact ⟨1, rfl⟩
    · exact ⟨0, rfl⟩
  induction h with
  | @block text h =>
    obtain ⟨n, hn⟩ := hs text
    exact ⟨n, fun rest _ => hn ▸ signs_isBlock h rest⟩
  | @line text h =>
    obtain ⟨n, hn⟩ := hs text
    refine ⟨n, fun rest hr => hn ▸ signs_isLine h ?_⟩
    simpa using hr
  | more _ _ ih ih' =>
    obtain ⟨n, hn⟩ := ih
    obtain ⟨k, hk⟩ := ih'
    refine ⟨n + k, fun rest hr => ?_⟩
    rw [List.append_assoc, hn _ (.inl rfl), List.cons_append, signs_blank rfl, hk rest hr,
      Option.map_map]
    congr 1
    funext ss
    rw [Function.comp_apply, ← List.append_assoc, List.replicate_append_replicate]

lemma Note.lines {closed : Bool} {text : List Char} (h : Note closed text) (old new : List Char) :
    ∀ rest, closed = true ∨ EndsLine rest →
      Rebase.lines old new none (text ++ rest) = text ++ Rebase.lines old new none rest := by
  induction h with
  | block h =>
    obtain ⟨x, rfl, hx⟩ := h
    exact fun rest _ => lines_block ⟨x, rfl, hx⟩ rest
  | line h =>
    obtain ⟨x, rfl, hx⟩ := h
    exact fun rest hr => lines_line ⟨x, rfl, hx⟩ (by simpa using hr)
  | more _ _ ih ih' =>
    intro rest hr
    rw [List.append_assoc, ih _ (.inl rfl), List.cons_append, lines_cons (by decide) (by decide)
      (by simp), ih' rest hr, List.append_assoc, List.cons_append]

end ParallelTests.Scan
