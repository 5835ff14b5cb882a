import ParallelTests.Proofs.Parse.Formed
import ParallelTests.Proofs.Scan.Follow

/-!
Trees whose text is that of their source. The pieces of a node splice the text of its span: what is no
child stands there as it is, and each child stands at its own span.
-/

namespace ParallelTests

open Scan

inductive Weaves (src : List Char) (ns : List Node) : Nat → List Piece → Nat → Prop
  | nil {a : Nat} : Weaves src ns a [] a
  | text {a m b : Nat} {ps : List Piece} (h : a ≤ m) (hps : Weaves src ns m ps b) :
      Weaves src ns a (.text (String.ofList (cut src a m)) :: ps) b
  | child {i b : Nat} {n : Node} {span : Span} {ps : List Piece} (hi : ns[i]? = some n)
      (hs : n.span = some span) (hlt : span.start < span.stop) (hps : Weaves src ns span.stop ps b) :
      Weaves src ns span.start (.child i :: ps) b

def Node.IsWoven (src : List Char) (n : Node) : Prop :=
  ∀ ps ∈ n.pieces, ∃ span, n.span = some span ∧ Weaves src n.children span.start ps span.stop

inductive Woven (src : List Char) : Node → Prop
  | mk {n : Node} (h : n.shape.Proper IsIdentifier) (hb : n.Backed) (hw : n.IsWoven src)
      (hc : ∀ c ∈ n.children, Woven src c) : Woven src n
  | clause {n header : Node} {body : List Node} (hs : n.shape = .caseClause header body)
      (hf : Formed n) (hp : n.pieces = none) (hh : ∀ c ∈ header.children, Woven src c)
      (hb : ∀ c ∈ body, Woven src c) : Woven src n

variable {src : List Char} {n m : Node}

lemma Node.isWoven_of_none (h : n.pieces = none) : n.IsWoven src := by
  simp [Node.IsWoven, h]

namespace Woven

lemma bare {span : Option Span} {layout : Layout} {shape : Shape} (h : shape.Proper IsIdentifier)
    (hb : shape.kind.isText = false) (hc : ∀ c ∈ shape.children, Woven src c) :
    Woven src (.mk span layout none shape) :=
  .mk h hb (Node.isWoven_of_none rfl) hc

lemma formed (h : Woven src n) : Formed n := by
  induction h with
  | mk h hb _ _ ih => exact .mk h hb ih
  | clause _ hf => exact hf

lemma isWoven (h : Woven src n) : n.IsWoven src := by
  cases h with
  | mk _ _ hw _ => exact hw
  | clause _ _ hp _ _ => exact Node.isWoven_of_none hp

lemma congr (h : Woven src n) (hspan : m.span = n.span) (hs : m.shape = n.shape)
    (hp : m.pieces = n.pieces) : Woven src m := by
  cases h with
  | mk h hb hw hc =>
    have hf := (Shaped.mk h hb fun c hmem => (hc c hmem).formed).of_shape hs hp
    refine .mk hf.proper hf.backed ?_ fun c hmem => hc c (by rwa [Node.children, ← hs])
    rw [Node.IsWoven, Node.children, hspan, hs, hp]
    exact hw
  | clause hshape hf hnone hh hb =>
    exact .clause (hs.trans hshape) (hf.of_shape hs hp) (hp.trans hnone) hh hb

end Woven

end ParallelTests
