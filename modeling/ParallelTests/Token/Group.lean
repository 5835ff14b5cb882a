import ParallelTests.Token.Basic

namespace ParallelTests

inductive TokenGroup
  | leaf (t : Token)
  | pair (bracket : Bracket) (opener : Token) (inner : List TokenGroup) (closer : Token)
  deriving Repr

namespace TokenGroup

def first : TokenGroup → Token
  | leaf t => t
  | pair _ opener _ _ => opener

def last : TokenGroup → Token
  | leaf t => t
  | pair _ _ _ closer => closer

mutual

def spelled : TokenGroup → List Token
  | leaf t => [t]
  | pair _ opener inner closer => opener :: (tokens inner ++ [closer])

def tokens : List TokenGroup → List Token
  | [] => []
  | g :: gs => g.spelled ++ tokens gs

end

mutual

def weight : TokenGroup → Nat
  | leaf _ => 1
  | pair _ _ inner _ => size inner + 2

def size : List TokenGroup → Nat
  | [] => 0
  | g :: gs => g.weight + size gs

end

mutual

def pairsIn (at_ : Nat) : TokenGroup → List (Nat × Nat)
  | leaf _ => []
  | pair _ _ inner _ => (at_, at_ + size inner + 1) :: pairs (at_ + 1) inner

def pairs (at_ : Nat) : List TokenGroup → List (Nat × Nat)
  | [] => []
  | g :: gs => g.pairsIn at_ ++ pairs (at_ + g.weight) gs

end

mutual

theorem length_spelled (g : TokenGroup) : g.spelled.length = g.weight := by
  match g with
  | leaf t => rfl
  | pair b o inner c => simp [spelled, weight, length_tokens inner]

theorem length_tokens (gs : List TokenGroup) : (tokens gs).length = size gs := by
  match gs with
  | [] => rfl
  | g :: gs => simp [tokens, size, length_spelled g, length_tokens gs]

end

inductive Failure
  | unexpected (bracket : Bracket) (closer : Token)
  | unclosed (bracket : Bracket) (opener : Token)
  deriving DecidableEq, Repr

structure Frame where
  bracket : Bracket
  opener : Token
  before : List TokenGroup

def nest : List Frame → List TokenGroup → List Token → Except Failure (List TokenGroup)
  | [], here, [] => .ok here.reverse
  | f :: _, _, [] => .error (.unclosed f.bracket f.opener)
  | frames, here, t :: ts =>
    match t.lexeme with
    | .op (.opening b) => nest (⟨b, t, here⟩ :: frames) [] ts
    | .op (.closing b) =>
      match frames with
      | f :: outer =>
        if f.bracket = b then nest outer (pair b f.opener here.reverse t :: f.before) ts
        else .error (.unexpected b t)
      | [] => .error (.unexpected b t)
    | _ => nest frames (leaf t :: here) ts

def ofTokens (ts : List Token) : Except Failure (List TokenGroup) := nest [] [] ts

end TokenGroup

end ParallelTests
