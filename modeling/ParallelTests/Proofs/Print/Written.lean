import ParallelTests.Printer.Render
import ParallelTests.Proofs.Result
import ParallelTests.Proofs.Scan.Says

namespace ParallelTests.Printer

open Scan

def Wrote (page page' : Page) (w : List Char) : Prop := page'.text.toList = page.text.toList ++ w

def Indents (rebase : Option Rebase) : Prop :=
  ∀ r ∈ rebase, (∀ c ∈ r.old.toList, isBlank c = true) ∧ ∀ c ∈ r.new.toList, isBlank c = true

variable {page page' page'' : Page} {rebase : Option Rebase}

lemma wrote_refl : Wrote page page [] := by
  simp [Wrote]

lemma wrote_write (page : Page) (text : String) : Wrote page (page.write text) text.toList := by
  simp [Wrote]

lemma Wrote.trans {x y : List Char} (h : Wrote page page' x) (h' : Wrote page' page'' y) :
    Wrote page page'' (x ++ y) := by
  rw [Wrote] at *
  rw [h', h, List.append_assoc]

lemma wrote_verbatim (h : Indents rebase) :
    ∃ old new : List Char, (∀ c ∈ old, isBlank c = true) ∧ (∀ c ∈ new, isBlank c = true) ∧
      ∀ page text, Wrote page (verbatim rebase page text) (Rebase.lines old new none text.toList) := by
  cases rebase with
  | none =>
    refine ⟨[], [], by simp, by simp, fun page text => ?_⟩
    rw [Rebase.lines_self]
    exact wrote_write page text
  | some r =>
    obtain ⟨ho, hn⟩ := h r rfl
    refine ⟨r.old.toList, r.new.toList, ho, hn, fun page text => ?_⟩
    have := wrote_write page (r.apply text)
    rwa [Rebase.apply, String.toList_ofList] at this

lemma isBlank_of_isIndent {c : Char} (h : Text.isIndent c = true) : isBlank c = true := by
  rcases Text.isIndent_iff.1 h with rfl | rfl <;> rfl

lemma isBlank_of_mem_indent {c : Char} (h : c ∈ page.indent.toList) : isBlank c = true := by
  rw [Page.indent, String.toList_ofList] at h
  exact isBlank_of_isIndent (List.mem_takeWhile_imp h)

def emitPiece (rebase : Option Rebase) (children : List Node) (page : Page) : Piece → Result Page
  | .text text => return verbatim rebase page text
  | .child i =>
    match children[i]? with
    | some c => emit rebase page c
    | none => return page
  | .inline m => emit rebase page m

lemma emit_woven {span : Option Span} {layout : Layout} {ps : List Piece} {shape : Shape}
    (hk : shape.kind ≠ .block) :
    emit rebase page (.mk span layout (some ps) shape) =
      ps.foldlM (emitPiece rebase shape.children) page := by
  rw [emit]
  · conv => rhs; rw [← List.attach_map_subtype_val ps, List.foldlM_map]
    congr 1
    funext page entry
    obtain ⟨p, hp⟩ := entry
    cases p with
    | text text => rfl
    | inline m => rfl
    | child i =>
      simp only [emitPiece]
      split <;> simp_all [Node.children, Node.shape]
  · intro stmts oneLine lead he
    simp [he, Shape.kind] at hk

end ParallelTests.Printer
