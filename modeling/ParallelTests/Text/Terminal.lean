namespace ParallelTests.Text

def isParameter (c : Char) : Bool := c.isDigit || c = ';' || c = '?'

def afterSequence? (cs : List Char) : Option (List Char) :=
  match cs.dropWhile isParameter with
  | c :: rest => if c.isAlpha then some rest else none
  | [] => none

theorem length_lt_of_afterSequence? {cs rest : List Char} (h : afterSequence? cs = some rest) :
    rest.length < cs.length := by
  have hd := (List.dropWhile_suffix isParameter (l := cs)).length_le
  unfold afterSequence? at h
  split at h
  · next c tail hc =>
    split at h
    · simp only [Option.some.injEq] at h
      subst h
      rw [hc] at hd
      simp only [List.length_cons] at hd
      omega
    · simp at h
  · simp at h

def stripControls : List Char → List Char
  | '\x1b' :: '[' :: cs =>
    match h : afterSequence? cs with
    | some rest =>
      have := length_lt_of_afterSequence? h
      stripControls rest
    | none => '\x1b' :: stripControls ('[' :: cs)
  | c :: cs => c :: stripControls cs
  | [] => []
termination_by cs => cs.length

end ParallelTests.Text
