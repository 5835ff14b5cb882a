import ParallelTests.Proofs.Scan.Extent
import ParallelTests.Proofs.Scan.Sign

namespace ParallelTests.Scan

def IsBlock (text : List Char) : Prop :=
  ∃ x, text = '/' :: '*' :: x ∧ blockLength x = some x.length

def IsLine (text : List Char) : Prop :=
  ∃ x, text = '/' :: '/' :: x ∧ ∀ c ∈ x, c ≠ '\n'

def EndsLine (cs : List Char) : Prop := ∀ c ∈ cs.head?, c = '\n'

lemma endsLine_nil : EndsLine [] := by
  simp [EndsLine]

lemma endsLine_newline (cs : List Char) : EndsLine ('\n' :: cs) := by
  simp [EndsLine]

lemma EndsLine.of_append {cs ds : List Char} (h : EndsLine (cs ++ ds)) : EndsLine cs := by
  cases cs with
  | nil => exact endsLine_nil
  | cons c cs => simpa [EndsLine] using h

lemma stops_of_endsLine {cs : List Char} (h : EndsLine cs) : Stops cs := by
  intro c hc
  rw [h c hc]
  rfl

lemma not_isLine_of_isBlock {text : List Char} (h : IsBlock text) : ¬IsLine text := by
  rintro ⟨y, hy, _⟩
  obtain ⟨x, rfl, _⟩ := h
  simp at hy

lemma first_of_isBlock {c : Char} {x : List Char} (h : IsBlock (c :: x)) (y : List Char) :
    first c (x ++ y) = .ok ⟨.comment, x.length⟩ := by
  obtain ⟨z, hz, hb⟩ := h
  obtain ⟨rfl, rfl⟩ := List.cons.inj hz
  have hb' : blockLength (z ++ y) = some z.length :=
    blockLength_append (x := z) (y := []) (by simpa using hb) y
  simp [first, isBlank, hb']

lemma runLength_isLine {x y : List Char} (hx : ∀ c ∈ x, c ≠ '\n') (hy : EndsLine y) :
    runLength (fun c => decide (c ≠ '\n')) ('/' :: x ++ y) = ('/' :: x).length := by
  rw [runLength_append_iff]
  exact ⟨by simpa using hx, fun c hc => by simpa using hy c hc⟩

lemma first_of_isLine {c : Char} {x y : List Char} (h : IsLine (c :: x)) (hy : EndsLine y) :
    first c (x ++ y) = .ok ⟨.comment, x.length⟩ := by
  obtain ⟨z, hz, hn⟩ := h
  obtain ⟨rfl, rfl⟩ := List.cons.inj hz
  simpa [first, isBlank] using runLength_isLine hn hy

lemma comment_cases {c : Char} {x y : List Char}
    (h : first c (x ++ y) = .ok ⟨.comment, x.length⟩) :
    IsBlock (c :: x) ∨ IsLine (c :: x) ∧ EndsLine y := by
  obtain ⟨k, hk⟩ : ∃ k, k = Class.comment := ⟨_, rfl⟩
  obtain ⟨n, hn⟩ : ∃ n, n = x.length := ⟨_, rfl⟩
  rw [← hk, ← hn] at h
  cases first_found h with
  | line hc hh =>
    right
    obtain ⟨hx, hy⟩ := runLength_append_iff.1 hn
    cases x with
    | nil =>
      have := hy '/' (by simpa using hh)
      simp at this
    | cons d x =>
      simp only [List.cons_append, List.head?_cons, Option.some.injEq] at hh
      exact ⟨⟨x, by rw [hc, hh], fun c hc => by simpa using hx c (by simp [hc])⟩,
        fun c hc => by simpa using hy c hc⟩
  | block hc hh hb =>
    left
    cases x with
    | nil => simp at hn
    | cons d x =>
      simp only [List.cons_append, List.head?_cons, Option.some.injEq] at hh
      obtain rfl : _ = x.length := by simpa using hn
      have := blockLength_append (y := y) (by simpa using hb) []
      exact ⟨x, by rw [hc, hh], by simpa using this⟩
  | _ => simp at hk

lemma signs_isBlock {text : List Char} (h : IsBlock text) (rest : List Char) :
    signs (text ++ rest) = (signs rest).map (Class.comment.signs text ++ ·) := by
  obtain ⟨x, rfl, hx⟩ := h
  exact signs_of_first (first_of_isBlock ⟨x, rfl, hx⟩ rest)

lemma signs_isLine {text rest : List Char} (h : IsLine text) (hr : EndsLine rest) :
    signs (text ++ rest) = (signs rest).map (Class.comment.signs text ++ ·) := by
  obtain ⟨x, rfl, hx⟩ := h
  exact signs_of_first (first_of_isLine ⟨x, rfl, hx⟩ hr)

end ParallelTests.Scan
