import ParallelTests.Node.Attach
import ParallelTests.Text.Trim
import ParallelTests.Token.Stream

/-!
Reading groups of tokens as expressions, statements and blocks. What is not one of the shapes that
matter is kept as text, and the function literals and blocks in it are read all the same.
-/

namespace ParallelTests.Parser

open TokenGroup

abbrev Result := Except Issue

def fail {α : Type} (reason : Reason) (t : Token) : Result α := .error ⟨reason, t.start⟩

structure Step (gs : List TokenGroup) where
  node : Placed
  rest : List TokenGroup
  rest_suffix : rest <:+ gs

def Step.mono {as bs : List TokenGroup} (s : Step as) (h : as <:+ bs) : Step bs :=
  ⟨s.node, s.rest, s.rest_suffix.trans h⟩

structure Steps (gs : List TokenGroup) where
  nodes : List Placed
  rest : List TokenGroup
  rest_suffix : rest <:+ gs

def Steps.mono {as bs : List TokenGroup} (s : Steps as) (h : as <:+ bs) : Steps bs :=
  ⟨s.nodes, s.rest, s.rest_suffix.trans h⟩

def next (closer : Token) : List TokenGroup → Token
  | [] => closer
  | g :: _ => g.first

def identifier (t : Token) : Result Placed :=
  match t.lexeme with
  | .ident name => .ok (.ident t name)
  | _ => fail (.expectedIdentifier t.shown) t

def signatureEnd (last : Token) : List TokenGroup → Token × List TokenGroup
  | [] => (last, [])
  | .leaf t :: gs =>
    if t.isSemicolon || t.isOp .comma || t.isOp .assign || t.isOp .colon || t.isOp .define then
      (last, .leaf t :: gs)
    else signatureEnd t gs
  | .pair .curly o inner c :: gs =>
    if last.isKeyword .kwStruct || last.isKeyword .kwInterface then signatureEnd c gs
    else (last, .pair .curly o inner c :: gs)
  | .pair _ _ _ c :: gs => signatureEnd c gs

theorem signatureEnd_suffix (last : Token) (gs : List TokenGroup) : (signatureEnd last gs).2 <:+ gs := by
  fun_induction signatureEnd last gs with
  | case1 => exact List.suffix_refl _
  | case2 => exact List.suffix_refl _
  | case3 _ _ _ _ ih => exact ih.trans (List.suffix_cons _ _)
  | case4 _ _ _ _ _ _ ih => exact ih.trans (List.suffix_cons _ _)
  | case5 => exact List.suffix_refl _
  | case6 _ _ _ _ _ _ _ ih => exact ih.trans (List.suffix_cons _ _)

theorem suffix_of_signatureEnd {last t : Token} {gs stop : List TokenGroup}
    (h : signatureEnd last gs = (t, stop)) : stop <:+ gs := by
  have := signatureEnd_suffix last gs
  rwa [h] at this

def paramName? (s : Stretch) : Option (Token × String × Stretch) :=
  match s.head, s.tail with
  | .leaf t, g :: gs =>
    match t.lexeme with
    | .ident name =>
      if g.first.isOp .period || (g.first.isOp (.opening .square) && g.first.start = t.stop) then
        none
      else some (t, name, ⟨g, gs⟩)
    | _ => none
  | _, _ => none

theorem size_lt_of_paramName? {s type : Stretch} {t : Token} {name : String}
    (h : paramName? s = some (t, name, type)) : type.size < s.size := by
  obtain ⟨head, tail⟩ := s
  unfold paramName? at h
  split at h
  · next t' g gs h₁ h₂ =>
    split at h
    · split at h
      · simp at h
      · simp only [Option.some.injEq, Prod.mk.injEq] at h
        obtain ⟨_, _, rfl⟩ := h
        simp only at h₁ h₂
        subst h₁ h₂
        simp [Stretch.size, Stretch.toList]
    · simp at h
  · simp at h

inductive Param
  | name (ident : Placed)
  | typed (span : Span) (ident type : Placed)

def fields (pending : List Placed) : List Param → List Placed × List Placed
  | [] => ([], pending)
  | .name ident :: ps => fields (pending ++ [ident]) ps
  | .typed span ident type :: ps =>
    let names := (pending ++ [ident]).map Placed.node
    let (done, left) := fields [] ps
    ({ span := span, shape := .field names type.node } :: done, left)

def singleIdent? (s : Stretch) : Option Placed :=
  match s.head, s.tail with
  | .leaf t, [] =>
    match t.lexeme with
    | .ident name => some (.ident t name)
    | _ => none
  | _, _ => none

def dropEllipsis? (s : Stretch) : Option (List TokenGroup) :=
  if (s.tail.getLastD s.head).isOp .ellipsis then some s.toList.dropLast else none

theorem eq_dropLast_of_dropEllipsis? {s : Stretch} {gs : List TokenGroup}
    (h : dropEllipsis? s = some gs) : gs = s.toList.dropLast := by
  unfold dropEllipsis? at h
  split at h <;> simp_all

def varNames (follow : Token) : List TokenGroup → Result (List Placed × List TokenGroup)
  | [] => fail (.expectedIdentifier follow.shown) follow
  | [g] => (identifier g.first).map fun ident => ([ident], [])
  | g :: sep :: gs => do
    let ident ← identifier g.first
    if sep.isOp .comma then
      let (names, rest) ← varNames follow gs
      return (ident :: names, rest)
    else return ([ident], sep :: gs)

theorem suffix_of_varNames {follow : Token} {gs rest : List TokenGroup} {names : List Placed}
    (h : varNames follow gs = .ok (names, rest)) : rest <:+ gs := by
  induction gs using varNames.induct generalizing names rest with
  | case1 => simp [varNames, fail] at h
  | case2 g =>
    rw [varNames] at h
    cases hi : identifier g.first <;> simp_all [Except.map]
  | case3 g sep gs ih =>
    rw [varNames] at h
    cases hi : identifier g.first with
    | error e => simp [hi, bind, Except.bind] at h
    | ok ident =>
      by_cases hs : sep.isOp .comma
      · cases hv : varNames follow gs with
        | error e => simp [hi, hs, hv, bind, Except.bind] at h
        | ok r =>
          simp only [hi, hs, hv, bind, Except.bind, pure, Except.pure, if_true, Except.ok.injEq,
            Prod.mk.injEq] at h
          obtain ⟨_, rfl⟩ := h
          exact ((ih hv).trans (List.suffix_cons _ _)).trans (List.suffix_cons _ _)
      · simp only [hi, hs, bind, Except.bind, pure, Except.pure, Bool.false_eq_true, if_false,
          Except.ok.injEq, Prod.mk.injEq] at h
        obtain ⟨_, rfl⟩ := h
        exact List.suffix_cons _ _

end ParallelTests.Parser
