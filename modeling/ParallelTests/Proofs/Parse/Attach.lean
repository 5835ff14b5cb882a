import ParallelTests.Proofs.Parse.Rows

/-!
Attaching comments dresses statements. A comment that ends with its line is the last one that goes
with a statement, and none goes with a clause.
-/

namespace ParallelTests

open Scan Attach

namespace Dressed

variable {p : Placed} {ps qs ps' qs' : List Placed}

lemma append (h : Dressed ps qs) (h' : Dressed ps' qs') : Dressed (ps ++ ps') (qs ++ qs') := by
  induction h with
  | nil => exact h'
  | stmt hl hc _ ih => exact .stmt hl hc ih
  | comment hl ht hc _ ih => exact .comment hl ht hc ih

lemma reverse (h : Dressed ps qs) : Dressed ps.reverse qs.reverse := by
  induction h with
  | nil => exact .nil
  | stmt hl hc _ ih =>
    rw [List.reverse_cons, List.reverse_cons]
    exact ih.append (.stmt hl hc .nil)
  | comment hl ht hc _ ih =>
    rw [List.reverse_cons]
    simpa using ih.append (.comment hl ht hc .nil)

end Dressed

def Spaced (stop : Nat) : List Occupant → Prop
  | [] => True
  | o :: os =>
    (o.stmt.shape.kind = .caseClause →
      o.stop = (os.head?.map (·.stmt.span.start)).getD stop) ∧ Spaced stop os

def Attach.Shelf.Closed (s : Shelf) : Prop :=
  match s.stmts with
  | [] => ∀ text ∈ s.lead, Note true text.toList
  | last :: _ =>
    (∀ text ∈ last.layout.trailing, Note true text.toList) ∧
      ∀ text, last.shape = .comment text → Note true text.toList

lemma note_joined {closed : Bool} {before : Option String} {text : String}
    (hb : ∀ t ∈ before, Note true t.toList) (ht : Note closed text.toList) :
    Note closed (joined before text).toList := by
  cases before with
  | none => exact ht
  | some t =>
    have he : (joined (some t) text).toList = t.toList ++ ' ' :: text.toList := by
      simp [joined]
    rw [he]
    exact .more (hb t rfl) ht

structure Shelved (done : List Placed) (cs : List Comment) (s : Shelf) : Prop where
  dressed : Dressed done s.stmts
  lead : ∀ text ∈ s.lead, IsNote text
  closed : ∀ c ∈ cs, c.line = s.endLine → s.Closed

namespace Shelved

variable {done : List Placed} {c : Comment} {cs : List Comment} {s : Shelf} {line : Nat}

lemma stmt {p : Placed} (h : Shelved done cs s) (hl : p.layout.Sound)
    (ht : p.layout.trailing = none) (hk : p.shape.kind ≠ .comment) :
    Shelved (p :: done) cs (s.push p) := by
  refine ⟨.stmt ⟨hl.trailing, hl.indent⟩ (fun _ => ht) h.dressed, h.lead, fun _ _ _ => ⟨?_, ?_⟩⟩
  · simp [ht]
  · intro text he
    exact absurd (congrArg Shape.kind he) hk

lemma isBlock_of_line (hr : Remarks line (c :: cs)) {d : Comment} (hd : d ∈ cs)
    (hl : d.line ≤ c.line) : IsBlock c.text.toList := by
  rcases hr.isRemark c (by simp) with hb | hi
  · exact hb
  · have := (List.pairwise_cons.1 hr.pairwise).1 d hd hi
    omega

lemma comment (h : Shelved done (c :: cs) s) (hr : Remarks line (c :: cs)) :
    Shelved done cs (s.push (Shelf.statement c)) := by
  obtain ⟨closed, hn⟩ := Note.of_isRemark (hr.isRemark c (by simp))
  refine ⟨.comment ⟨by simp [Shelf.statement], by simp [Shelf.statement]⟩ hn (.inr rfl) h.dressed,
    h.lead, fun d hd hl => ⟨by simp [Shelf.statement], ?_⟩⟩
  rintro text ⟨⟩
  rcases hr.isRemark c (by simp) with hb | hi
  · exact .block hb
  · refine .block (isBlock_of_line hr hd ?_)
    rw [hl, ← hr.endLine c (by simp) hi]
    exact Nat.le_refl _

lemma append (h : Shelved done (c :: cs) s) (hr : Remarks line (c :: cs)) (hl : c.line = s.endLine)
    (hk : ∀ p ∈ s.stmts.head?, p.shape.kind ≠ .caseClause) : Shelved done cs (s.append c) := by
  obtain ⟨closed, hn⟩ := Note.of_isRemark (hr.isRemark c (by simp))
  have hclosed := h.closed c (by simp) hl
  have hblock : ∀ d ∈ cs, d.line = max s.endLine c.endLine → Note true c.text.toList := by
    intro d hd hdl
    rcases hr.isRemark c (by simp) with hb | hi
    · exact .block hb
    · refine .block (isBlock_of_line hr hd ?_)
      rw [hdl, hr.endLine c (by simp) hi, hl, Nat.max_self]
  have hd := h.dressed
  unfold Shelf.append
  unfold Shelf.Closed at hclosed
  split
  · next last earlier hs =>
    simp only [hs] at hclosed hd
    refine ⟨?_, h.lead, fun d hd hdl => ⟨?_, hclosed.2⟩⟩
    · have hjoin : IsNote (joined last.layout.trailing c.text) :=
        ⟨closed, note_joined hclosed.1 hn⟩
      cases hd with
      | @stmt p layout _ _ hlay hcl hd =>
        refine .stmt (p := p) ⟨by simpa using hjoin, hlay.indent⟩ (fun he => ?_) hd
        exact absurd he (hk { p with layout := layout } (by simp [hs]))
      | @comment _ c' layout _ _ hlay _ _ hd =>
        exact .comment (c := c') ⟨by simpa using hjoin, hlay.indent⟩ (hclosed.2 _ rfl) (.inl rfl) hd
    · simpa using note_joined hclosed.1 (hblock d hd hdl)
  · next hs =>
    simp only [hs] at hclosed hd
    refine ⟨hd, ?_, fun d hd hdl => ?_⟩
    · simpa using ⟨closed, note_joined hclosed hn⟩
    · simpa [Shelf.Closed] using note_joined hclosed (hblock d hd hdl)

lemma add_comment (h : Shelved done (c :: cs) s) (hr : Remarks line (c :: cs))
    (hk : ∀ p ∈ s.stmts.head?, p.shape.kind ≠ .caseClause) :
    Shelved done cs (s.add (.comment c)) ∧
      ∀ p ∈ (s.add (.comment c)).stmts.head?, p.shape.kind ≠ .caseClause := by
  rw [Shelf.add]
  split
  · next hl =>
    refine ⟨h.append hr hl hk, ?_⟩
    unfold Shelf.append
    split
    · next last earlier hs => simpa [hs] using hk last (by simp [hs])
    · simp
  · exact ⟨h.comment hr, by simp [Shelf.push, Shelf.statement, Shape.kind]⟩

lemma entries_nil (ps : List Placed) : Attach.entries ps [] = ps.map .stmt := by
  cases ps <;> simp [Attach.entries]

lemma entries {stop : Nat} {os : List Occupant} (h : Shelved done cs s) (hr : Remarks line cs)
    (hs : ∀ o ∈ os, o.stmt.layout.Sound ∧ o.stmt.layout.trailing = none ∧
      o.stmt.shape.kind ≠ .comment)
    (hsp : Spaced stop os) (hfree : ∀ c ∈ cs, c.start < stop ∧ ∀ o ∈ os, covers o c = false)
    (hk : ∀ c ∈ cs.head?, (∀ o ∈ os.head?, c.start < o.stmt.span.start) →
      ∀ p ∈ s.stmts.head?, p.shape.kind ≠ .caseClause) :
    Shelved ((os.map (·.stmt)).reverse ++ done) []
      ((Attach.entries (os.map (·.stmt)) cs).foldl Shelf.add s) := by
  induction os generalizing s cs done with
  | nil =>
    induction cs generalizing s with
    | nil => simpa [Attach.entries] using h
    | cons c cs ih =>
      obtain ⟨h', hk'⟩ := h.add_comment hr (hk c rfl (by simp))
      have := ih h' (hr.sublist (List.sublist_cons_self ..)) (fun d hd => hfree d (by simp [hd])) fun _ _ _ => hk'
      simpa [Attach.entries] using this
  | cons o os iho =>
    obtain ⟨⟨hl, ht, hc⟩, hos⟩ := List.forall_mem_cons.1 hs
    have hpush {s : Shelf} {cs : List Comment} (h : Shelved done cs s) (hr : Remarks line cs)
        (hfree : ∀ c ∈ cs, c.start < stop ∧ ∀ o' ∈ o :: os, covers o' c = false)
        (hle : ∀ c ∈ cs.head?, o.stmt.span.start ≤ c.start) :
        Shelved (((o :: os).map (·.stmt)).reverse ++ done) []
          ((Attach.entries (os.map (·.stmt)) cs).foldl Shelf.add (s.push o.stmt)) := by
      have := iho (h.stmt hl ht hc) hr hos hsp.2
        (fun c hc => ⟨(hfree c hc).1, (List.forall_mem_cons.1 (hfree c hc).2).2⟩) ?_
      · simpa using this
      · -- a comment before what follows a clause would be one of its own
        intro c hcs hlt p hp hkind
        obtain rfl : _ = p := Option.some.inj hp
        obtain ⟨hstop, hcov⟩ := hfree c (List.mem_of_head? hcs)
        have hcov := hcov o (by simp)
        have hend := hsp.1 hkind
        simp only [covers, Bool.and_eq_false_iff, decide_eq_false_iff_not] at hcov
        have := hle c hcs
        cases os with
        | nil =>
          simp at hend
          omega
        | cons o' os =>
          have := hlt o' rfl
          simp at hend
          omega
    induction cs generalizing s with
    | nil =>
      have := hpush h hr (by simp) (by simp)
      rw [entries_nil] at this
      rw [entries_nil]
      exact this
    | cons c cs ihc =>
      rw [List.map_cons, Attach.entries]
      split
      · next hle => exact hpush h hr hfree (by simpa using hle)
      · next hle =>
        obtain ⟨h', hk'⟩ := h.add_comment hr (hk c rfl (by simpa using hle))
        exact ihc h' (hr.sublist (List.sublist_cons_self ..)) (fun d hd => hfree d (by simp [hd])) fun _ _ _ => hk'

end Shelved

lemma dressed_of_attach {comments : List Comment} {line : Nat} {opener closer : Token}
    {os : List Occupant} {qs : List Placed} {lead : Option String} (hr : Remarks line comments)
    (hs : ∀ o ∈ os, o.stmt.layout.Sound ∧ o.stmt.layout.trailing = none ∧
      o.stmt.shape.kind ≠ .comment)
    (hsp : Spaced closer.start os) (h : attach comments opener closer os = (qs, lead)) :
    Dressed (os.map (·.stmt)) qs ∧ ∀ text ∈ lead, IsNote text := by
  obtain ⟨rfl, rfl⟩ := Prod.mk.inj h
  have hfree : ∀ c ∈ free comments opener closer os,
      c.start < closer.start ∧ ∀ o ∈ os, covers o c = false :=
    fun c hc => ⟨(of_mem_free hc).1.2, (of_mem_free hc).2⟩
  have hstart : Shelved [] (free comments opener closer os) ⟨[], none, opener.line⟩ :=
    ⟨.nil, by simp, fun _ _ _ => by simp [Shelf.Closed]⟩
  have hend := hstart.entries (hr.sublist List.filter_sublist) hs hsp hfree (by simp)
  have hd := hend.dressed.reverse
  rw [List.append_nil, List.reverse_reverse] at hd
  exact ⟨hd, hend.lead⟩

end ParallelTests
