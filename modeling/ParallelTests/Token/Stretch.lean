import ParallelTests.Token.Group

namespace ParallelTests

namespace TokenGroup

@[simp] theorem size_nil : size [] = 0 := rfl

@[simp] theorem size_cons (g : TokenGroup) (gs : List TokenGroup) : size (g :: gs) = g.weight + size gs := rfl

@[simp] theorem weight_leaf (t : Token) : (leaf t).weight = 1 := rfl

@[simp] theorem weight_pair (b : Bracket) (o c : Token) (inner : List TokenGroup) :
    (pair b o inner c).weight = size inner + 2 := rfl

theorem size_append (as bs : List TokenGroup) : size (as ++ bs) = size as + size bs := by
  induction as with
  | nil => simp
  | cons g gs ih => simp [ih, Nat.add_assoc]

theorem weight_pos (g : TokenGroup) : 0 < g.weight := by
  cases g <;> simp

theorem size_le_of_suffix {as bs : List TokenGroup} (h : as <:+ bs) : size as ≤ size bs := by
  obtain ⟨t, rfl⟩ := h
  simp [size_append]

theorem size_le_of_isPrefix {as bs : List TokenGroup} (h : as <+: bs) : size as ≤ size bs := by
  obtain ⟨t, rfl⟩ := h
  simp [size_append]

def isSemicolon : TokenGroup → Bool
  | leaf t => t.isSemicolon
  | pair .. => false

def isOp (o : Operator) : TokenGroup → Bool
  | leaf t => t.isOp o
  | pair .. => false

def isKeyword (k : Keyword) : TokenGroup → Bool
  | leaf t => t.isKeyword k
  | pair .. => false

def upTo (p : TokenGroup → Bool) (gs : List TokenGroup) : List TokenGroup := gs.takeWhile (!p ·)

def since (p : TokenGroup → Bool) (gs : List TokenGroup) : List TokenGroup := gs.dropWhile (!p ·)

theorem upTo_append_since (p : TokenGroup → Bool) (gs : List TokenGroup) : upTo p gs ++ since p gs = gs :=
  List.takeWhile_append_dropWhile

theorem size_upTo_le (p : TokenGroup → Bool) (gs : List TokenGroup) : size (upTo p gs) ≤ size gs :=
  size_le_of_isPrefix (List.takeWhile_prefix _)

theorem since_suffix (p : TokenGroup → Bool) (gs : List TokenGroup) : since p gs <:+ gs :=
  List.dropWhile_suffix _

theorem size_dropLast_le (gs : List TokenGroup) : size gs.dropLast ≤ size gs :=
  size_le_of_isPrefix (List.dropLast_prefix gs)

end TokenGroup

structure Stretch where
  head : TokenGroup
  tail : List TokenGroup

namespace Stretch

open TokenGroup

def toList (s : Stretch) : List TokenGroup := s.head :: s.tail

def size (s : Stretch) : Nat := TokenGroup.size s.toList

def first (s : Stretch) : Token := s.head.first

def last (s : Stretch) : Token := (s.tail.getLastD s.head).last

def ofList? : List TokenGroup → Option Stretch
  | [] => none
  | g :: gs => some ⟨g, gs⟩

theorem ofList?_eq_some_iff {gs : List TokenGroup} {s : Stretch} :
    ofList? gs = some s ↔ gs = s.toList := by
  cases gs with
  | nil => simp [ofList?, toList]
  | cons g gs =>
    obtain ⟨h, t⟩ := s
    simp [ofList?, toList]

@[simp] theorem size_toList (s : Stretch) : TokenGroup.size s.toList = s.size := rfl

@[simp] theorem size_mk (g : TokenGroup) (gs : List TokenGroup) :
    (⟨g, gs⟩ : Stretch).size = g.weight + TokenGroup.size gs := rfl

theorem size_eq (s : Stretch) : s.size = s.head.weight + TokenGroup.size s.tail := rfl

theorem size_of_ofList? {gs : List TokenGroup} {s : Stretch} (h : ofList? gs = some s) :
    s.size = TokenGroup.size gs := by
  rw [ofList?_eq_some_iff.1 h]
  rfl

theorem size_tail_lt (s : Stretch) : TokenGroup.size s.tail < s.size := by
  have := weight_pos s.head
  rw [size_eq]
  omega

def statement (s : Stretch) : Stretch := ⟨s.head, upTo isSemicolon s.tail⟩

theorem size_statement_le (s : Stretch) : s.statement.size ≤ s.size := by
  have := size_upTo_le isSemicolon s.tail
  rw [statement, size_mk, size_eq s]
  omega

def runs (sep : TokenGroup → Bool) : List TokenGroup → List (List TokenGroup)
  | [] => [[]]
  | g :: gs =>
    match runs sep gs with
    | [] => [[g]]
    | r :: rs => if sep g then [] :: r :: rs else (g :: r) :: rs

def split (sep : TokenGroup → Bool) (gs : List TokenGroup) : List Stretch :=
  (runs sep gs).filterMap ofList?

theorem size_le_of_mem_runs {sep : TokenGroup → Bool} {gs r : List TokenGroup} (h : r ∈ runs sep gs) :
    TokenGroup.size r ≤ TokenGroup.size gs := by
  induction gs generalizing r with
  | nil => simp_all [runs]
  | cons g gs ih =>
    unfold runs at h
    rcases hr : runs sep gs with _ | ⟨q, qs⟩
    · simp_all
    · have := @ih q (by simp [hr])
      by_cases hs : sep g
      · simp only [hr, hs, if_true, List.mem_cons] at h
        rcases h with rfl | h
        · simp
        · have := @ih r (by simpa [hr] using h)
          simp
          omega
      · simp only [hr, hs, if_false, List.mem_cons, Bool.false_eq_true] at h
        rcases h with rfl | h
        · simp
          omega
        · have := @ih r (by simp [hr, h])
          simp
          omega

theorem size_le_of_mem_split {sep : TokenGroup → Bool} {gs : List TokenGroup} {s : Stretch}
    (h : s ∈ split sep gs) : s.size ≤ TokenGroup.size gs := by
  obtain ⟨r, hr, hs⟩ := List.mem_filterMap.1 h
  rw [ofList?_eq_some_iff] at hs
  subst hs
  exact size_le_of_mem_runs hr

end Stretch

structure Body (gs : List TokenGroup) where
  before : List TokenGroup
  opener : Token
  inner : List TokenGroup
  closer : Token
  after : List TokenGroup
  eq : gs = before ++ .pair .curly opener inner closer :: after

namespace Body

def push {gs : List TokenGroup} (g : TokenGroup) (b : Body gs) : Body (g :: gs) :=
  ⟨g :: b.before, b.opener, b.inner, b.closer, b.after, congrArg (g :: ·) b.eq⟩

def find (accept : Option Token → Bool) : (gs : List TokenGroup) → Option (Body gs)
  | [] => none
  | .pair .curly o inner c :: gs =>
    if accept (gs.head?.map TokenGroup.first) then some ⟨[], o, inner, c, gs, rfl⟩
    else (find accept gs).map (push _)
  | g :: gs => (find accept gs).map (push g)

def endsHere : Option Token → Bool
  | none => true
  | some t => t.isAutomatic || t.isKeyword .kwElse

def endsAtSemicolon : Option Token → Bool
  | none => false
  | some t => t.isSemicolon

def ofStatement (gs : List TokenGroup) : Option (Body gs) :=
  (find endsHere gs).or (find endsAtSemicolon gs)

theorem size_eq {gs : List TokenGroup} (b : Body gs) :
    TokenGroup.size gs = TokenGroup.size b.before + (TokenGroup.size b.inner + 2 + TokenGroup.size b.after) := by
  conv => lhs; rw [b.eq]
  simp [TokenGroup.size_append]

theorem after_suffix {gs : List TokenGroup} (b : Body gs) : b.after <:+ gs :=
  ⟨b.before ++ [.pair .curly b.opener b.inner b.closer], by simp [← b.eq]⟩

end Body

end ParallelTests
