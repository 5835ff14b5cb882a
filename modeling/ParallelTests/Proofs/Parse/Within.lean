import ParallelTests.Proofs.Parse.Rules
import ParallelTests.Proofs.Parse.Scanned

/-!
Offsets inside a text. What is read inside a text has its spans inside it, and what cannot be read is
refused at an offset inside it.
-/

namespace ParallelTests

open TokenGroup

def Token.Within (n : Nat) (t : Token) : Prop := t.start ≤ n ∧ t.stop ≤ n

def Within (n : Nat) (gs : List TokenGroup) : Prop := ∀ t ∈ tokens gs, t.Within n

/-- Every node of a tree has a span in the first `n` characters. -/
inductive Spanned (n : Nat) : Node → Prop
  | mk {node : Node} {span : Span} (hs : node.span = some span) (hstart : span.start ≤ n)
      (hstop : span.stop ≤ n) (hc : ∀ m ∈ node.children, Spanned n m) : Spanned n node

variable {n : Nat}

namespace Within

variable {g : TokenGroup} {gs xs : List TokenGroup} {st : Stretch}

lemma cons_iff : Within n (g :: gs) ↔ Within n [g] ∧ Within n gs := by
  simp [Within, or_imp, forall_and]

lemma head (h : Within n (g :: gs)) : Within n [g] := (cons_iff.1 h).1

lemma tail (h : Within n (g :: gs)) : Within n gs := (cons_iff.1 h).2

lemma subset (h : Within n gs) (hx : ∀ t ∈ tokens xs, t ∈ tokens gs) : Within n xs :=
  fun t ht => h t (hx t ht)

lemma left {ys : List TokenGroup} (h : Within n (xs ++ ys)) : Within n xs :=
  h.subset fun t ht => by simp [ht]

lemma right {ys : List TokenGroup} (h : Within n (xs ++ ys)) : Within n ys :=
  h.subset fun t ht => by simp [ht]

lemma suffix (h : Within n gs) (hx : xs <:+ gs) : Within n xs := by
  obtain ⟨ys, rfl⟩ := hx
  exact h.right

lemma upTo (h : Within n gs) (p : TokenGroup → Bool) : Within n (TokenGroup.upTo p gs) := by
  rw [← upTo_append_since p gs] at h
  exact h.left

lemma since (h : Within n gs) (p : TokenGroup → Bool) : Within n (TokenGroup.since p gs) :=
  h.suffix (since_suffix p gs)

lemma dropLast (h : Within n gs) : Within n gs.dropLast := by
  obtain ⟨ys, hys⟩ := List.dropLast_prefix gs
  rw [← hys] at h
  exact h.left

lemma leaf {t : Token} (h : Within n (.leaf t :: gs)) : t.Within n := h t (by simp)

lemma opener {b : Bracket} {o c : Token} {inner : List TokenGroup}
    (h : Within n (.pair b o inner c :: gs)) : o.Within n := h o (by simp)

lemma closer {b : Bracket} {o c : Token} {inner : List TokenGroup}
    (h : Within n (.pair b o inner c :: gs)) : c.Within n := h c (by simp)

lemma inner {b : Bracket} {o c : Token} {inner : List TokenGroup}
    (h : Within n (.pair b o inner c :: gs)) : Within n inner :=
  h.subset fun t ht => by simp [ht]

lemma group_first (h : Within n [g]) : g.first.Within n := by
  obtain ⟨ts, hts⟩ := g.spelled_eq_first
  exact h _ (by simp [hts])

lemma group_last (h : Within n [g]) : g.last.Within n := by
  obtain ⟨ts, hts⟩ := g.spelled_eq_last
  exact h _ (by simp [hts])

lemma first (h : Within n st.toList) : st.first.Within n := by
  obtain ⟨ts, hts⟩ := st.tokens_eq_first
  exact h _ (by simp [hts])

lemma last (h : Within n st.toList) : st.last.Within n := by
  obtain ⟨ts, hts⟩ := st.tokens_eq_last
  exact h _ (by simp [hts])

lemma statement (h : Within n st.toList) : Within n st.statement.toList :=
  cons_iff.2 ⟨h.head, h.tail.upTo _⟩

lemma of_mem_split {sep : TokenGroup → Bool} (h : Within n gs) (hm : st ∈ Stretch.split sep gs) :
    Within n st.toList := by
  obtain ⟨r, hr, hst⟩ := List.mem_filterMap.1 hm
  rw [← Stretch.ofList?_eq_some_iff.1 hst]
  clear hst hm
  induction gs generalizing r with
  | nil => simp_all [Stretch.runs]
  | cons g gs ih =>
    rw [Stretch.runs] at hr
    split at hr
    · rw [List.mem_singleton.1 hr]
      exact h.head
    · next q qs hq =>
      rw [hq] at ih
      split at hr
      · obtain rfl | hr := List.mem_cons.1 hr
        · simp [Within]
        · exact ih h.tail r hr
      · obtain rfl | hr := List.mem_cons.1 hr
        · exact cons_iff.2 ⟨h.head, ih h.tail q (by simp)⟩
        · exact ih h.tail r (by simp [hr])

lemma next {closer : Token} (h : Within n gs) (hc : closer.Within n) :
    (Parser.next closer gs).Within n := by
  cases gs with
  | nil => exact hc
  | cons g gs => exact h.head.group_first

end Within

lemma spanned_of {p : Placed} (hstart : p.span.start ≤ n) (hstop : p.span.stop ≤ n)
    (hc : ∀ m ∈ p.shape.children, Spanned n m) : Spanned n p.node := ⟨rfl, hstart, hstop, hc⟩

namespace Spanned

variable {p q : Placed}

lemma span_le (h : Spanned n p.node) : p.span.start ≤ n ∧ p.span.stop ≤ n := by
  cases h with
  | mk hs hstart hstop => exact Option.some.inj hs ▸ ⟨hstart, hstop⟩

lemma children (h : Spanned n p.node) : ∀ m ∈ p.shape.children, Spanned n m := by
  cases h with
  | mk _ _ _ hc => exact hc

lemma congr (h : Spanned n p.node) (hspan : q.span = p.span)
    (hc : q.shape.children = p.shape.children) : Spanned n q.node :=
  spanned_of (hspan ▸ h.span_le.1) (hspan ▸ h.span_le.2) (hc ▸ h.children)

lemma leaf {t : Token} {shape : Shape} {pieces : Option (List Piece)} (h : t.Within n)
    (hc : shape.children = []) :
    Spanned n ({ span := .ofToken t, shape, pieces } : Placed).node :=
  spanned_of h.1 h.2 (by simp [hc])

end Spanned

namespace Parser

def Sure {α : Type} (n : Nat) (P : α → Prop) : Result α → Prop
  | .ok a => P a
  | .error e => e.offset ≤ n

namespace Sure

variable {α β : Type} {P : α → Prop} {Q : β → Prop} {x : Result α}

lemma fail {t : Token} {reason : Reason} (h : t.Within n) : Sure n P (Parser.fail reason t) := h.1

lemma bind {f : α → Result β} (h : Sure n P x) (hf : ∀ a, P a → Sure n Q (f a)) :
    Sure n Q (x >>= f) := by
  cases x with
  | ok a => exact hf a h
  | error e => exact h

lemma map {f : α → β} (h : Sure n P x) (hf : ∀ a, P a → Q (f a)) : Sure n Q (x.map f) := by
  cases x with
  | ok a => exact hf a h
  | error e => exact h

lemma mapM {f : α → Result β} {xs : List α} (h : ∀ x ∈ xs, Sure n Q (f x)) :
    Sure n (fun ys => ∀ y ∈ ys, Q y) (xs.mapM f) := by
  induction xs with
  | nil => exact fun y hy => by simp at hy
  | cons x xs ih =>
    rw [List.mapM_cons]
    apply (h x (by simp)).bind
    intro y hy
    apply (ih fun z hz => h z (by simp [hz])).bind
    intro ys hys
    exact List.forall_mem_cons.2 ⟨hy, hys⟩

lemma attach_mapM {xs : List α} {f : { x // x ∈ xs } → Result β}
    (h : ∀ x hx, Sure n Q (f ⟨x, hx⟩)) : Sure n (fun ys => ∀ y ∈ ys, Q y) (xs.attach.mapM f) :=
  mapM fun x _ => h x.1 x.2

end Sure

end Parser

end ParallelTests
