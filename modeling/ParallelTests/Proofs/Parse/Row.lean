import ParallelTests.Proofs.Layout.Laid
import ParallelTests.Proofs.Parse.Order
import ParallelTests.Proofs.Parse.Words
import ParallelTests.Proofs.Parse.Woven

namespace ParallelTests

open Scan TokenGroup

abbrev Lies (src : List Char) (part : Part) (a b : Nat) : Prop := Laid src (fun _ => []) part a b

inductive Rowed (src : List Char) : Nat → List Placed → Nat → Prop
  | nil {a b : Nat} (ha : Sync src a) (hb : Sync src b) (h : a ≤ b) : Rowed src a [] b
  | cons {a b : Nat} {p : Placed} {ps : List Placed} (ha : Sync src a)
      (hs : Sync src p.span.start) (h : a ≤ p.span.start) (hlt : p.span.start < p.span.stop)
      (hp : Lies src (.node p.node) p.span.start p.span.stop) (hw : Woven src p.node)
      (ho : p.Ordered) (hps : Rowed src p.span.stop ps b) : Rowed src a (p :: ps) b

namespace Rowed

variable {src : List Char} {a b c : Nat} {p : Placed} {ps qs : List Placed}

lemma le (h : Rowed src a ps b) : a ≤ b := by
  induction h with
  | nil _ _ h => exact h
  | cons _ _ h hlt _ _ _ _ ih => exact h.trans (hlt.le.trans ih)

lemma from_left (h : Rowed src a ps b) {a' : Nat} (ha : Sync src a') (hle : a' ≤ a) :
    Rowed src a' ps b := by
  cases h with
  | nil _ hb h => exact .nil ha hb (hle.trans h)
  | cons _ hs h hl hp hw ho hps => exact .cons ha hs (hle.trans h) hl hp hw ho hps

lemma append (h : Rowed src a ps b) (h' : Rowed src b qs c) : Rowed src a (ps ++ qs) c := by
  induction h with
  | nil ha _ hle => exact h'.from_left ha hle
  | cons ha hs hle hl hp hw ho _ ih => exact .cons ha hs hle hl hp hw ho (ih h')

lemma forall_woven (h : Rowed src a ps b) : ∀ p ∈ ps, Woven src p.node := by
  induction h with
  | nil => simp
  | cons _ _ _ _ _ hw _ _ ih => exact List.forall_mem_cons.2 ⟨hw, ih⟩

lemma rising (h : Rowed src a ps b) : Rising a (startsIn ps) b := by
  induction h with
  | nil => exact .nil _ _
  | cons _ _ h hlt _ _ ho hps ih =>
    exact (ho.starts.append ih (Nat.le_refl _) hlt.le hps.le).mono h (Nat.le_refl _)

lemma rising_succ (h : Rowed src a ps b) (hk : ∀ p ∈ ps, p.shape.kind.isStmt = false) :
    Rising (a + 1) (startsIn ps) b := by
  induction h with
  | nil => exact .nil _ _
  | cons _ _ h hlt _ _ ho hps ih =>
    obtain ⟨hp, hps'⟩ := List.forall_mem_cons.1 hk
    exact ((ho.starts_succ hp).append (ih hps') (by omega) (by omega) hps.le).mono (by omega) (Nat.le_refl _)

end Rowed

variable {src : Source} {a b c index : Nat} {children : List Node} {pieces : List Piece}

lemma lies_gap (ha : Sync src.chars a) (hb : Sync src.chars b) (h : a ≤ b)
    (hp : Lies src.chars (.pieces children pieces) b c) :
    Lies src.chars (.pieces children (src.gap a b ++ pieces)) a c := by
  unfold Source.gap
  split
  · obtain ⟨ms, hr⟩ := ha.to hb h
    exact .text ha hr (fun _ _ _ => rfl) hp
  · obtain rfl : a = b := by omega
    exact hp

lemma Rowed.weave {ps : List Placed} (h : Rowed src.chars a ps b)
    (hi : ∀ i p, ps[i]? = some p → children[index + i]? = some p.node) :
    Lies src.chars (.pieces children (src.weave a b index ps)) a b := by
  induction h generalizing index with
  | nil ha hb hle =>
    rw [Source.weave, ← List.append_nil (src.gap _ _)]
    exact lies_gap ha hb hle (.done hb.le_length)
  | cons ha hs hle _ hp _ _ _ ih =>
    rw [Source.weave]
    refine lies_gap ha hs hle (.child (hi 0 _ rfl) hp (ih fun i q hq => ?_))
    rw [Nat.add_assoc, Nat.add_comm 1]
    exact hi (i + 1) q hq

lemma weaves_gap {ns : List Node} {ps : List Piece} (h : a ≤ b) (hp : Weaves src.chars ns b ps c) :
    Weaves src.chars ns a (src.gap a b ++ ps) c := by
  rw [Source.gap]
  split
  · exact .text h hp
  · obtain rfl : a = b := by omega
    exact hp

lemma Rowed.weaves {ps : List Placed} (h : Rowed src.chars a ps b)
    (hi : ∀ i p, ps[i]? = some p → children[index + i]? = some p.node) :
    Weaves src.chars children a (src.weave a b index ps) b := by
  induction h generalizing index with
  | nil _ _ hle =>
    rw [Source.weave, ← List.append_nil (src.gap _ _)]
    exact weaves_gap hle .nil
  | cons _ _ hle hlt _ _ _ _ ih =>
    rw [Source.weave]
    refine weaves_gap hle (.child (hi 0 _ rfl) rfl hlt (ih fun i q hq => ?_))
    rw [Nat.add_assoc, Nat.add_comm 1]
    exact hi (i + 1) q hq

lemma getElem?_of_row (pre : List Node) {ps : List Placed} (hc : children = pre ++ ps.map Placed.node)
    (i : Nat) (p : Placed) (hp : ps[i]? = some p) : children[pre.length + i]? = some p.node := by
  rw [hc, List.getElem?_append_right (Nat.le_add_right _ _), Nat.add_sub_cancel_left,
    List.getElem?_map, hp]
  rfl

lemma Rowed.woven (pre : List Node) (span : Span) {ps : List Placed} {layout : Layout} {shape : Shape}
    (h : Rowed src.chars span.start ps span.stop) (hk : shape.kind ≠ .block)
    (hc : shape.children = pre ++ ps.map Placed.node) :
    Lies src.chars (.node (.mk (some span) layout (src.pieces span pre.length ps) shape))
      span.start span.stop := by
  exact .woven hk (h.weave (getElem?_of_row pre hc))

lemma child?_gap (a b : Nat) : (src.gap a b).filterMap Piece.child? = [] := by
  unfold Source.gap
  split <;> rfl

lemma child?_weave (a b index : Nat) (ps : List Placed) :
    (src.weave a b index ps).filterMap Piece.child? = List.range' index ps.length := by
  induction ps generalizing a index with
  | nil => exact child?_gap a b
  | cons p ps ih =>
    rw [Source.weave, List.filterMap_append, child?_gap, List.nil_append,
      List.filterMap_cons_some (f := Piece.child?) (b := index) rfl, ih, List.length_cons, List.range'_succ]

lemma inline_notMem_weave (a b index : Nat) (ps : List Placed) (m : Node) :
    .inline m ∉ src.weave a b index ps := by
  have hg (a b : Nat) : .inline m ∉ src.gap a b := by
    unfold Source.gap
    split <;> simp
  induction ps generalizing a index with
  | nil => exact hg a b
  | cons p ps ih => simp [Source.weave, hg, ih]

lemma shows_weave (pre : List Node) {ns : List Node} {ps : List Placed} (hc : ns = pre ++ ps.map Placed.node)
    (hs : ∀ n ∈ pre, n.kind.isSilent = true) : Shows ns (src.weave a b pre.length ps) := by
  subst hc
  refine ⟨inline_notMem_weave a b pre.length ps, pre.length, ?_, by simpa using hs⟩
  rw [child?_weave]
  simp

structure Reads (src : List Char) (p : Placed) (st : Stretch) : Prop where
  span_eq : p.span = st.span
  layout_eq : p.layout = {}
  lies : Lies src (.node p.node) st.first.start st.last.stop
  woven : Woven src p.node
  ordered : p.Ordered

namespace Reads

variable {src : List Char} {p : Placed} {st : Stretch}

lemma rowed (h : Reads src p st) (hs : Scanned src a st.toList b)
    (hf : st.first.isAutomatic = false) : Rowed src a [p] b := by
  obtain ⟨ht, hl, hr⟩ := hs.trim
  have hspan := h.span_eq
  refine .cons hs.sync_left ?_ ?_ ?_ ?_ h.woven h.ordered (.nil ?_ hs.sync_right ?_) <;> rw [hspan]
  · exact ht.sync_left
  · exact hl
  · exact hs.lt hf
  · exact h.lies
  · exact ht.sync_right
  · exact hr

lemma rising (h : Reads src p st) (hs : Scanned src a st.toList b) : Rising a p.node.starts b := by
  obtain ⟨-, hl, hr⟩ := hs.trim
  have ho := h.ordered.starts
  rw [h.span_eq] at ho
  exact ho.mono hl hr

end Reads

lemma reads_woven (pre : List Node) {st : Stretch} {ps : List Placed} {shape : Shape} {span : Span}
    (hspan : span = st.span) (hr : Rowed src.chars st.first.start ps st.last.stop)
    (hk : shape.kind.isWoven = true) (hc : shape.children = pre ++ ps.map Placed.node)
    (hp : shape.Proper IsIdentifier) (hf : ∀ n ∈ pre, Woven src.chars n ∧ n.kind.isSilent = true)
    (hlt : shape.kind.isStmt = true → st.first.start < st.last.stop)
    (ho : Rising (st.first.start + 1) (pre.flatMap Node.starts ++ startsIn ps) st.last.stop) :
    Reads src.chars { span := span, shape := shape, pieces := src.pieces span pre.length ps } st := by
  subst hspan
  have hin : shape.children.flatMap Node.starts = pre.flatMap Node.starts ++ startsIn ps := by
    rw [hc, List.flatMap_append, flatMap_starts]
  have hweaves : Node.IsWoven src.chars
      (Placed.node
        { span := st.span, shape := shape, pieces := src.pieces st.span pre.length ps }) := by
    rintro _ ⟨⟩
    exact ⟨st.span, rfl, hr.weaves (getElem?_of_row pre hc)⟩
  refine ⟨rfl, rfl, Rowed.woven pre st.span hr (Kind.ne_block_of_isWoven hk) hc, .mk hp
    ⟨hk, shows_weave pre hc fun n hn => (hf n hn).2⟩ hweaves fun n hn => ?_, hlt, ?_⟩
  · rw [Node.children, Placed.node, Node.shape, hc, List.mem_append] at hn
    rcases hn with hn | hn
    · exact (hf n hn).1
    · obtain ⟨p, hp, rfl⟩ := List.mem_map.1 hn
      exact hr.forall_woven p hp
  · rw [Placed.inner, hin]
    exact ho

end ParallelTests
