import Mathlib.Data.List.Forall2
import Mathlib.Tactic.Common

namespace Except

variable {ε α β : Type}

lemma map_eq_ok_iff {x : Except ε α} {f : α → β} {b : β} :
    x.map f = .ok b ↔ ∃ a, x = .ok a ∧ f a = b := by
  cases x <;> simp [Except.map]

lemma mapError_eq_ok_iff {ε' : Type} {x : Except ε α} {f : ε → ε'} {a : α} :
    x.mapError f = .ok a ↔ x = .ok a := by
  cases x <;> simp [Except.mapError]

lemma toOption_eq_some {x : Except ε α} {a : α} : x.toOption = some a ↔ x = .ok a := by
  cases x <;> simp [Except.toOption]

lemma bind_eq_ok_iff {x : Except ε α} {f : α → Except ε β} {b : β} :
    x >>= f = .ok b ↔ ∃ a, x = .ok a ∧ f a = .ok b := by
  cases x <;> simp [bind, Except.bind]

lemma pure_eq_ok_iff {a b : α} : (pure a : Except ε α) = .ok b ↔ a = b := by
  simp [pure, Except.pure]

lemma forall₂_of_mapM {f : α → Except ε β} {xs : List α} {ys : List β} (h : xs.mapM f = .ok ys) :
    List.Forall₂ (fun x y => f x = .ok y) xs ys := by
  induction xs generalizing ys with
  | nil =>
    obtain rfl := pure_eq_ok_iff.1 h
    exact .nil
  | cons x xs ih =>
    rw [List.mapM_cons] at h
    obtain ⟨y, hy, h⟩ := bind_eq_ok_iff.1 h
    obtain ⟨ys', hys, h⟩ := bind_eq_ok_iff.1 h
    obtain rfl := pure_eq_ok_iff.1 h
    exact .cons hy (ih hys)

lemma forall₂_of_attach_mapM {xs : List α} {f : { x // x ∈ xs } → Except ε β} {ys : List β}
    (h : xs.attach.mapM f = .ok ys) :
    List.Forall₂ (fun x y => ∃ hx : x ∈ xs, f ⟨x, hx⟩ = .ok y) xs ys := by
  have h₂ : List.Forall₂ (fun x y => ∃ hx : x ∈ xs, f ⟨x, hx⟩ = .ok y)
      (xs.attach.map Subtype.val) ys :=
    List.forall₂_map_left_iff.2 ((forall₂_of_mapM h).imp fun x y hxy => ⟨x.2, hxy⟩)
  rwa [List.attach_map_subtype_val] at h₂

lemma attach_mapM_eq {xs : List α} {f : { x // x ∈ xs } → Except ε β} {g : α → Except ε β}
    (h : ∀ x hx, f ⟨x, hx⟩ = g x) : xs.attach.mapM f = xs.mapM g := by
  conv => rhs; rw [← List.attach_map_subtype_val xs, List.mapM_map]
  congr 1
  funext x
  exact h x.1 x.2

lemma exists_of_mem_mapM {f : α → Except ε β} {xs : List α} {ys : List β} (h : xs.mapM f = .ok ys)
    {x : α} (hx : x ∈ xs) : ∃ y ∈ ys, f x = .ok y := by
  have h₂ := forall₂_of_mapM h
  obtain ⟨i, hi, rfl⟩ := List.getElem_of_mem hx
  have hl := h₂.length_eq
  exact ⟨ys[i], List.getElem_mem (by omega), h₂.get hi (by omega)⟩

lemma forall_of_mapM {f : α → Except ε β} {xs : List α} {ys : List β} {P : β → Prop}
    (h : xs.mapM f = .ok ys) (hf : ∀ x ∈ xs, ∀ y, f x = .ok y → P y) : ∀ y ∈ ys, P y := by
  have h₂ := forall₂_of_mapM h
  intro y hy
  obtain ⟨i, hi, rfl⟩ := List.getElem_of_mem hy
  have hl := h₂.length_eq
  exact hf _ (List.getElem_mem (by omega)) _ (h₂.get (by omega) hi)

lemma forall_of_attach_mapM {xs : List α} {f : { x // x ∈ xs } → Except ε β} {ys : List β}
    {P : β → Prop} (h : xs.attach.mapM f = .ok ys) (hf : ∀ x hx y, f ⟨x, hx⟩ = .ok y → P y) :
    ∀ y ∈ ys, P y :=
  forall_of_mapM h fun x _ y hy => hf x.1 x.2 y hy

end Except
