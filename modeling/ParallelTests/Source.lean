namespace ParallelTests

structure Source where
  path : String
  chars : List Char
  deriving DecidableEq, Repr

structure Cursor where
  offset : Nat
  line : Nat
  column : Nat
  deriving DecidableEq, Repr

namespace Cursor

def start : Cursor := ⟨0, 1, 1⟩

def step (at_ : Cursor) (c : Char) : Cursor :=
  if c = '\n' then ⟨at_.offset + 1, at_.line + 1, 1⟩
  else ⟨at_.offset + 1, at_.line, at_.column + 1⟩

def advance (at_ : Cursor) (cs : List Char) : Cursor :=
  cs.foldl step at_

@[simp] theorem advance_nil (at_ : Cursor) : at_.advance [] = at_ := rfl

@[simp] theorem advance_cons (at_ : Cursor) (c : Char) (cs : List Char) :
    at_.advance (c :: cs) = (at_.step c).advance cs := rfl

theorem advance_append (at_ : Cursor) (as bs : List Char) :
    at_.advance (as ++ bs) = (at_.advance as).advance bs := by
  simp [advance]

theorem offset_step (at_ : Cursor) (c : Char) : (at_.step c).offset = at_.offset + 1 := by
  unfold step
  split <;> rfl

theorem offset_advance (at_ : Cursor) (cs : List Char) :
    (at_.advance cs).offset = at_.offset + cs.length := by
  induction cs generalizing at_ with
  | nil => rfl
  | cons c cs ih => simp [ih, offset_step]; omega

theorem line_step (at_ : Cursor) (c : Char) :
    (at_.step c).line = at_.line + [c].count '\n' := by
  unfold step
  split <;> simp_all

theorem line_advance (at_ : Cursor) (cs : List Char) :
    (at_.advance cs).line = at_.line + cs.count '\n' := by
  induction cs generalizing at_ with
  | nil => rfl
  | cons c cs ih =>
    have h : (c :: cs).count '\n' = [c].count '\n' + cs.count '\n' := by
      rw [← List.count_append, List.singleton_append]
    rw [advance_cons, ih, line_step, h]
    omega

end Cursor

def lineStartsFrom (at_ : Nat) : List Char → List Nat
  | [] => []
  | c :: cs =>
    if c = '\n' then (at_ + 1) :: lineStartsFrom (at_ + 1) cs else lineStartsFrom (at_ + 1) cs

namespace Source

def ofString (path text : String) : Source := ⟨path, text.toList⟩

def size (s : Source) : Nat := s.chars.length

def slice (s : Source) (start stop : Nat) : String :=
  String.ofList ((s.chars.drop start).take (stop - start))

def lineStarts (s : Source) : List Nat := 0 :: lineStartsFrom 0 s.chars

def lineOf (s : Source) (offset : Int) : Nat :=
  s.lineStarts.countP fun (start : Nat) => (start : Int) ≤ offset

def lineStart (s : Source) : Nat → Nat
  | 0 => s.lineStarts.getLastD 0
  | line + 1 => s.lineStarts.getD line 0

def columnOf (s : Source) (offset : Int) : Int :=
  offset - s.lineStart (s.lineOf offset) + 1

def indentAt (s : Source) (offset : Nat) : Option String :=
  let before := ((s.chars.take offset).reverse.takeWhile (· ≠ '\n')).reverse
  if before.all fun c => c = ' ' || c = '\t' then some (String.ofList before) else none

end Source

end ParallelTests
