import ParallelTests.Proofs.Layout.Laid

namespace ParallelTests

open Scan

variable {src : List Char} {extra extra' : Nat → List Lexeme} {a b : Nat}

lemma Labels.congr {n : Node} (h : Labels src extra n a b)
    (he : ∀ o, a ≤ o → o < b → extra' o = extra o) : Labels src extra' n a b := by
  cases h with
  | mk hk hs hm hl hr hg hc hx =>
    exact .mk hk hs hm hl hr hg hc fun o h₁ h₂ => (he o h₁ (Nat.lt_succ_of_le h₂)).trans (hx o h₁ h₂)

namespace Laid

lemma congr {part : Part} (h : Laid src extra part a b)
    (he : ∀ o, a ≤ o → o < b → extra' o = extra o) : Laid src extra' part a b := by
  induction h with
  | woven hk _ ih => exact .woven hk (ih he)
  | block hstop ho hc hs hv hx hx' hone hl h ih =>
    have hle := h.le
    exact .block hstop ho hc hs hv ((he _ (Nat.le_refl _) (by omega)).trans hx)
      ((he _ (by omega) (Nat.lt_succ_self _)).trans hx') hone hl
      (ih fun o h₁ h₂ => he o (by omega) (by omega))
  | done ha => exact .done ha
  | text hs hr hx h ih =>
    have hle := h.le
    have hle' := hr.le
    exact .text hs hr (fun o h₁ h₂ => (he o h₁ (by omega)).trans (hx o h₁ h₂))
      (ih fun o h₁ h₂ => he o (by omega) h₂)
  | child hi hn h ihn ih =>
    have hle := hn.le
    have hle' := h.le
    exact .child hi (ihn fun o h₁ h₂ => he o h₁ (by omega)) (ih fun o h₁ h₂ => he o (by omega) h₂)
  | ended hr hg => exact .ended hr hg
  | comment hl ht hc _ ih => exact .comment hl ht hc (ih he)
  | stmt hr hg hend hn hm hs hlast hfresh h ihn ih =>
    have hle := hr.le
    have hle' := hn.le
    have hle'' := h.le
    exact .stmt hr hg hend (ihn fun o h₁ h₂ => he o (by omega) (by omega)) hm hs hlast hfresh
      (ih fun o h₁ h₂ => he o (by omega) h₂)
  | plain hk hl _ ih => exact .plain hk hl (ih he)
  | clause hl hk hs hh ht hm hb ihh ihb =>
    have hle := hh.le
    have hle' := hb.le
    exact .clause hl hk hs (ihh fun o h₁ h₂ => he o h₁ (by omega)) ht hm
      (ihb fun o h₁ h₂ => he o (by omega) h₂)
  | label hl hn => exact .label hl (hn.congr he)
  | labeled hl hn hr hg hi hk ih =>
    have hle := hn.le
    have hle' := hr.le
    have hle'' := hi.le
    exact .labeled hl (hn.congr fun o h₁ h₂ => he o h₁ (by omega)) hr hg
      (ih fun o h₁ h₂ => he o (by omega) h₂) hk

lemma congr_children {ns ms : List Node} {ps : List Piece} (h : Laid src extra (.pieces ns ps) a b)
    (hc : ∀ i, .child i ∈ ps → ms[i]? = ns[i]?) : Laid src extra (.pieces ms ps) a b := by
  generalize hp : Part.pieces ns ps = part at h
  induction h generalizing ps with
  | done ha =>
    obtain ⟨rfl, rfl⟩ := Part.pieces.inj hp
    exact .done ha
  | text hs hr hx _ ih =>
    obtain ⟨rfl, rfl⟩ := Part.pieces.inj hp
    exact .text hs hr hx (ih (fun i hi => hc i (by simp [hi])) rfl)
  | child hi hn _ _ ih =>
    obtain ⟨rfl, rfl⟩ := Part.pieces.inj hp
    exact .child ((hc _ (by simp)).trans hi) hn (ih (fun i hi => hc i (by simp [hi])) rfl)
  | _ => simp at hp

end Laid

end ParallelTests
