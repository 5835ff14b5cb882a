import ParallelTests.Proofs.Layout.Kept
import ParallelTests.Token.Stretch

/-!
Groups keep the tokens they are made of, and their brackets match. Whether tokens can be grouped is
settled by the lexemes that are brackets.
-/

namespace ParallelTests

lemma List.getLastD_append_right {α : Type} (xs ys : List α) (d : α) :
    (xs ++ ys).getLastD d = ys.getLastD (xs.getLastD d) := by
  rcases List.eq_nil_or_concat ys with rfl | ⟨ys, y, rfl⟩ <;> simp [← List.append_assoc]

namespace TokenGroup

inductive Matched : TokenGroup → Prop
  | leaf {t : Token} (ho : ∀ b, t.lexeme ≠ .op (.opening b))
      (hc : ∀ b, t.lexeme ≠ .op (.closing b)) : Matched (leaf t)
  | pair {b : Bracket} {o c : Token} {inner : List TokenGroup} (ho : o.lexeme = .op (.opening b))
      (hc : c.lexeme = .op (.closing b)) (h : ∀ g ∈ inner, Matched g) : Matched (pair b o inner c)

@[simp] lemma tokens_nil : tokens [] = [] := by
  simp [tokens]

@[simp] lemma tokens_cons (g : TokenGroup) (gs : List TokenGroup) :
    tokens (g :: gs) = g.spelled ++ tokens gs := by
  simp [tokens]

@[simp] lemma spelled_leaf (t : Token) : (leaf t).spelled = [t] := by
  simp [spelled]

@[simp] lemma spelled_pair (b : Bracket) (o c : Token) (inner : List TokenGroup) :
    (pair b o inner c).spelled = o :: (tokens inner ++ [c]) := by
  simp [spelled]

@[simp] lemma tokens_append (as bs : List TokenGroup) : tokens (as ++ bs) = tokens as ++ tokens bs := by
  induction as with
  | nil => simp
  | cons g gs ih => simp [ih]

def unread : List Frame → List TokenGroup → List Token
  | [], here => tokens here.reverse
  | f :: frames, here => unread frames f.before ++ f.opener :: tokens here.reverse

lemma unread_push (frames : List Frame) (g : TokenGroup) (here : List TokenGroup) :
    unread frames (g :: here) = unread frames here ++ g.spelled := by
  cases frames <;> simp [unread]

def Frame.Matched (f : Frame) : Prop :=
  f.opener.lexeme = .op (.opening f.bracket) ∧ ∀ g ∈ f.before, g.Matched

lemma nest_leaf {frames : List Frame} {here : List TokenGroup} {t : Token} {ts : List Token}
    (ho : ∀ b, t.lexeme ≠ .op (.opening b)) (hc : ∀ b, t.lexeme ≠ .op (.closing b)) :
    nest frames here (t :: ts) = nest frames (leaf t :: here) ts := by
  rw [nest]
  split
  · next b hb => exact absurd hb (ho b)
  · next b hb => exact absurd hb (hc b)
  · rfl

lemma nest_spec {frames : List Frame} {here gs : List TokenGroup} {ts : List Token}
    (h : nest frames here ts = .ok gs) (hf : ∀ f ∈ frames, f.Matched) (hh : ∀ g ∈ here, g.Matched) :
    tokens gs = unread frames here ++ ts ∧ ∀ g ∈ gs, g.Matched := by
  induction frames, here, ts using nest.induct with
  | case1 here =>
    rw [nest, Except.ok.injEq] at h
    subst h
    exact ⟨by simp [unread], by simpa using hh⟩
  | case2 f frames here => simp [nest] at h
  | case3 frames here t ts b hb ih =>
    simp only [nest, hb] at h
    obtain ⟨ht, hm⟩ := ih h (by simpa using ⟨⟨hb, hh⟩, hf⟩) (by simp)
    exact ⟨by simpa [unread] using ht, hm⟩
  | case4 here t ts f outer hb ih =>
    simp only [nest, hb, if_true] at h
    obtain ⟨⟨ho, hbefore⟩, houter⟩ := List.forall_mem_cons.1 hf
    have hp : (pair f.bracket f.opener here.reverse t).Matched := .pair ho hb (by simpa using hh)
    obtain ⟨ht, hm⟩ := ih h houter (List.forall_mem_cons.2 ⟨hp, hbefore⟩)
    refine ⟨?_, hm⟩
    rw [ht, unread_push]
    simp [unread]
  | case5 here t ts b hb f outer hne => simp [nest, hb, hne] at h
  | case6 here t ts b hb => simp [nest, hb] at h
  | case7 frames here t ts hopen hclose ih =>
    rw [nest_leaf hopen hclose] at h
    obtain ⟨ht, hm⟩ := ih h hf (List.forall_mem_cons.2 ⟨.leaf hopen hclose, hh⟩)
    refine ⟨?_, hm⟩
    rw [ht, unread_push]
    simp

lemma tokens_of_ofTokens {ts : List Token} {gs : List TokenGroup} (h : ofTokens ts = .ok gs) :
    tokens gs = ts ∧ ∀ g ∈ gs, g.Matched := by
  have := nest_spec h (by simp) (by simp)
  simpa [unread] using this

end TokenGroup

def Lexeme.nests : List Bracket → Lexeme → Option (List Bracket)
  | bs, .op (.opening b) => some (b :: bs)
  | [], .op (.closing _) => none
  | b' :: bs, .op (.closing b) => if b' = b then some bs else none
  | bs, _ => some bs

lemma Lexeme.nests_of_ne {l : Lexeme} (ho : ∀ b, l ≠ .op (.opening b))
    (hc : ∀ b, l ≠ .op (.closing b)) (bs : List Bracket) : l.nests bs = some bs := by
  cases l with
  | op o => cases o <;> simp_all [nests]
  | _ => simp [nests]

def Closes (bs : List Bracket) (ls : List Lexeme) : Prop := ls.foldlM Lexeme.nests bs = some []

namespace TokenGroup

lemma nest_ok_iff {frames : List Frame} {here : List TokenGroup} {ts : List Token} :
    (∃ gs, nest frames here ts = .ok gs) ↔
      Closes (frames.map (·.bracket)) (ts.map (·.lexeme)) := by
  induction frames, here, ts using nest.induct with
  | case1 here => simp [nest, Closes]
  | case2 f frames here => simp [nest, Closes]
  | case3 frames here t ts b hb ih => simpa [nest, hb, Closes, Lexeme.nests] using ih
  | case4 here t ts f outer hb ih => simpa [nest, hb, Closes, Lexeme.nests] using ih
  | case5 here t ts b hb f outer hne => simp [nest, hb, hne, Closes, Lexeme.nests]
  | case6 here t ts b hb => simp [nest, hb, Closes, Lexeme.nests]
  | case7 frames here t ts hopen hclose ih =>
    rw [nest_leaf hopen hclose, ih, Closes, Closes, List.map_cons, List.foldlM_cons,
      Lexeme.nests_of_ne hopen hclose]
    rfl

lemma ofTokens_ok_iff {ts : List Token} :
    (∃ gs, ofTokens ts = .ok gs) ↔ Closes [] (ts.map (·.lexeme)) :=
  nest_ok_iff

end TokenGroup

lemma Lexeme.nests_of_isSemicolon {l : Lexeme} (h : l.isSemicolon = true) (bs : List Bracket) :
    l.nests bs = some bs := by
  apply nests_of_ne <;> rintro b rfl <;> simp [isSemicolon] at h

lemma closes_filter {bs : List Bracket} {ls : List Lexeme} :
    Closes bs (ls.filter (!·.isSemicolon)) ↔ Closes bs ls := by
  induction ls generalizing bs with
  | nil => rfl
  | cons l ls ih =>
    cases hl : l.isSemicolon with
    | true =>
      rw [List.filter_cons_of_neg (by simp [hl]), ih, Closes, Closes, List.foldlM_cons,
        Lexeme.nests_of_isSemicolon hl]
      rfl
    | false =>
      rw [List.filter_cons_of_pos (by simp [hl]), Closes, Closes, List.foldlM_cons, List.foldlM_cons]
      cases hn : l.nests bs with
      | none => rfl
      | some bs' => exact ih

end ParallelTests
