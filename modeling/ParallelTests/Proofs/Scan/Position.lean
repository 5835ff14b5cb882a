import Mathlib.Data.List.Induction
import Mathlib.Tactic.Common
import ParallelTests.Source

/-!
The line and the column of an offset: how many newlines come before it, and how far behind the last
of them it is.
-/

namespace ParallelTests

lemma lineStartsFrom_append (k : Nat) (as bs : List Char) :
    lineStartsFrom k (as ++ bs) = lineStartsFrom k as ++ lineStartsFrom (k + as.length) bs := by
  induction as generalizing k with
  | nil => simp [lineStartsFrom]
  | cons c as ih =>
    rw [List.cons_append, lineStartsFrom, lineStartsFrom, ih, List.length_cons, Nat.add_right_comm,
      Nat.add_assoc k]
    split <;> simp

lemma length_lineStartsFrom (k : Nat) (cs : List Char) :
    (lineStartsFrom k cs).length = cs.count '\n' := by
  induction cs generalizing k with
  | nil => rfl
  | cons c cs ih =>
    rw [lineStartsFrom]
    split <;> simp_all

lemma mem_lineStartsFrom {k start : Nat} {cs : List Char} (h : start ∈ lineStartsFrom k cs) :
    k < start ∧ start ≤ k + cs.length := by
  induction cs generalizing k with
  | nil => simp [lineStartsFrom] at h
  | cons c cs ih =>
    rw [lineStartsFrom] at h
    rw [List.length_cons]
    split at h
    · obtain rfl | h := List.mem_cons.1 h
      · omega
      · have := ih h
        omega
    · have := ih h
      omega

lemma getLastD_lineStartsFrom (cs : List Char) :
    (lineStartsFrom 0 cs).getLastD 0 + (cs.reverse.takeWhile (· ≠ '\n')).length = cs.length := by
  induction cs using List.reverseRecOn with
  | nil => rfl
  | append_singleton cs c ih =>
    rw [lineStartsFrom_append, lineStartsFrom, List.reverse_append, List.length_append]
    by_cases hc : c = '\n'
    · simp [hc, lineStartsFrom]
    · simp [hc, lineStartsFrom, ← ih]
      omega

namespace Source

variable {src : Source} {o : Nat}

lemma lineStarts_eq (src : Source) (o : Nat) :
    src.lineStarts = (0 :: lineStartsFrom 0 (src.chars.take o)) ++
      lineStartsFrom (src.chars.take o).length (src.chars.drop o) := by
  rw [lineStarts, List.cons_append, ← Nat.zero_add (src.chars.take o).length,
    ← lineStartsFrom_append, List.take_append_drop]

lemma lineOf_eq (h : o ≤ src.size) : src.lineOf o = 1 + (src.chars.take o).count '\n' := by
  have hlen : (src.chars.take o).length = o := List.length_take_of_le h
  have hbefore : (0 :: lineStartsFrom 0 (src.chars.take o)).countP
      (fun start : Nat => decide ((start : Int) ≤ o)) = 1 + (src.chars.take o).count '\n' := by
    rw [← length_lineStartsFrom 0, Nat.add_comm, ← List.length_cons, List.countP_eq_length]
    intro start hs
    obtain rfl | hs := List.mem_cons.1 hs
    · simp
    · have := (mem_lineStartsFrom hs).2
      simp
      omega
  have hbehind : (lineStartsFrom (src.chars.take o).length (src.chars.drop o)).countP
      (fun start : Nat => decide ((start : Int) ≤ o)) = 0 := by
    rw [List.countP_eq_zero]
    intro start hs
    have := (mem_lineStartsFrom hs).1
    simp
    omega
  rw [lineOf, lineStarts_eq src o, List.countP_append, hbefore, hbehind, Nat.add_zero]

lemma columnOf_eq (h : o ≤ src.size) :
    src.columnOf o = 1 + ((src.chars.take o).reverse.takeWhile (· ≠ '\n')).length := by
  have hlen : (src.chars.take o).length = o := List.length_take_of_le h
  have hlast := getLastD_lineStartsFrom (src.chars.take o)
  have hstart : src.lineStart (1 + (src.chars.take o).count '\n') =
      (lineStartsFrom 0 (src.chars.take o)).getLastD 0 := by
    rw [Nat.add_comm, lineStart, lineStarts_eq src o, ← length_lineStartsFrom 0]
    generalize lineStartsFrom 0 (src.chars.take o) = starts
    rw [List.getD_eq_getElem?_getD, List.getElem?_append_left (by simp)]
    cases starts using List.reverseRecOn with
    | nil => rfl
    | append_singleton starts last => simp
  rw [columnOf, lineOf_eq h, hstart]
  omega

end Source

end ParallelTests
