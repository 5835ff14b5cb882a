import ParallelTests.Proofs.Parse.Order

/-!
Attaching comments is a partition. Each comment goes with the opening, goes with one entry, or is an
entry of its own, and what goes where is settled by the lines on which things end.
-/

namespace ParallelTests

def Placed.laidOut (p : Placed) (blank : Bool) (trailing : Option String) : Placed :=
  { p with layout := { p.layout with blankBefore := blank, trailing := trailing } }

namespace Attach

namespace Entry

def placed : Entry → Placed
  | stmt p => p
  | comment c => Shelf.statement c

def start (e : Entry) : Nat := e.placed.span.start

def stmt? : Entry → Option Placed
  | stmt p => some p
  | comment _ => none

def comment? : Entry → Option Comment
  | stmt _ => none
  | comment c => some c

end Entry

def texts (before : Option String) (cs : List Comment) : Option String :=
  cs.foldl (fun text c => some (joined text c.text)) before

def lastLine (line : Nat) (cs : List Comment) : Nat := cs.foldl (fun line c => max line c.endLine) line

def Joins (line : Nat) : List Comment → Prop
  | [] => True
  | c :: cs => c.line = line ∧ Joins (max line c.endLine) cs

structure Slot where
  entry : Entry
  trailing : List Comment

namespace Slot

def entries (x : Slot) : List Entry := x.entry :: x.trailing.map .comment

def comments (x : Slot) : List Comment := x.entry.comment?.toList ++ x.trailing

def endLine (x : Slot) : Nat := lastLine x.entry.placed.span.endLine x.trailing

def Fills (x : Slot) (q : Placed) : Prop :=
  ∃ blank, q = x.entry.placed.laidOut blank (texts none x.trailing)

end Slot

def Seated (line : Nat) : List Slot → Prop
  | [] => True
  | x :: xs => (∀ c, x.entry = .comment c → c.line ≠ line) ∧
      Joins x.entry.placed.span.endLine x.trailing ∧ Seated x.endLine xs

def reading (leads : List Comment) (slots : List Slot) : List Entry :=
  leads.map .comment ++ slots.flatMap Slot.entries

structure Partition (comments : List Comment) (opener closer : Token) (occupants : List Occupant)
    (leads : List Comment) (slots : List Slot) (qs : List Placed) (lead : Option String) : Prop where
  each : leads ++ slots.flatMap Slot.comments = free comments opener closer occupants
  stmts : slots.filterMap (·.entry.stmt?) = occupants.map (·.stmt)
  ascending : (reading leads slots).Pairwise fun d e => d.start < e.start
  lead_eq : lead = texts none leads
  fills : List.Forall₂ Slot.Fills slots qs
  joins : Joins opener.line leads
  seated : Seated (lastLine opener.line leads) slots

namespace Shelf

def extend (s : Shelf) (cs : List Comment) : Shelf := cs.foldl append s

lemma extend_cons (p : Placed) (blank : Bool) (text : Option String) (ps : List Placed)
    (lead : Option String) (line : Nat) (cs : List Comment) :
    (⟨p.laidOut blank text :: ps, lead, line⟩ : Shelf).extend cs =
      ⟨p.laidOut blank (texts text cs) :: ps, lead, lastLine line cs⟩ := by
  induction cs generalizing text line with
  | nil => rfl
  | cons c cs ih => exact ih _ _

lemma extend_nil (lead : Option String) (line : Nat) (cs : List Comment) :
    (⟨[], lead, line⟩ : Shelf).extend cs = ⟨[], texts lead cs, lastLine line cs⟩ := by
  induction cs generalizing lead line with
  | nil => rfl
  | cons c cs ih => exact ih _ _

lemma endLine_append (s : Shelf) (c : Comment) : (s.append c).endLine = max s.endLine c.endLine := by
  unfold append
  split <;> rfl

end Shelf

structure Settled (s : Shelf) (es : List Entry) (more : List Comment) (slots : List Slot)
    (qs : List Placed) : Prop where
  entries : reading more slots = es
  joins : Joins s.endLine more
  seated : Seated (lastLine s.endLine more) slots
  fills : List.Forall₂ Slot.Fills slots qs
  result : (es.foldl Shelf.add s).stmts = qs.reverse ++ (s.extend more).stmts ∧
    (es.foldl Shelf.add s).lead = (s.extend more).lead

namespace Settled

variable {s : Shelf} {es : List Entry} {more : List Comment} {slots : List Slot} {qs : List Placed}

lemma append {c : Comment} (hc : c.line = s.endLine) (h : Settled (s.append c) es more slots qs) :
    Settled s (.comment c :: es) (c :: more) slots qs where
  entries := congrArg (Entry.comment c :: ·) h.entries
  joins := ⟨hc, s.endLine_append c ▸ h.joins⟩
  seated := by
    have := h.seated
    rwa [s.endLine_append c] at this
  fills := h.fills
  result := by
    rw [List.foldl_cons, Shelf.add, if_pos hc]
    exact h.result

lemma push {e : Entry} (he : s.add e = s.push e.placed) (ht : e.placed.layout.trailing = none)
    (hc : ∀ c, e = .comment c → c.line ≠ s.endLine) (h : Settled (s.push e.placed) es more slots qs) :
    ∃ q, Settled s (e :: es) [] (⟨e, more⟩ :: slots) (q :: qs) := by
  let blank := !s.stmts.isEmpty && decide (s.endLine + 1 < e.placed.span.line)
  have hextend : (s.push e.placed).extend more =
      ⟨e.placed.laidOut blank (texts none more) :: s.stmts, s.lead,
        lastLine e.placed.span.endLine more⟩ := by
    rw [← ht]
    exact Shelf.extend_cons e.placed blank _ _ _ _ _
  obtain ⟨hstmts, hlead⟩ := h.result
  rw [hextend] at hstmts hlead
  refine ⟨e.placed.laidOut blank (texts none more), congrArg (e :: ·) h.entries, trivial,
    ⟨hc, h.joins, h.seated⟩, .cons ⟨blank, rfl⟩ h.fills, ?_⟩
  rw [List.foldl_cons, he, hstmts, hlead]
  exact ⟨by simp [Shelf.extend], rfl⟩

end Settled

lemma exists_settled (s : Shelf) (es : List Entry)
    (ht : ∀ e ∈ es, e.placed.layout.trailing = none) : ∃ more slots qs, Settled s es more slots qs := by
  induction es generalizing s with
  | nil => exact ⟨[], [], [], rfl, trivial, trivial, .nil, rfl, rfl⟩
  | cons e es ih =>
    obtain ⟨he, hes⟩ := List.forall_mem_cons.1 ht
    cases e with
    | stmt p =>
      obtain ⟨more, slots, qs, h⟩ := ih (s.push p) hes
      obtain ⟨q, hq⟩ := Settled.push (e := .stmt p) rfl he (by simp) h
      exact ⟨_, _, _, hq⟩
    | comment c =>
      by_cases hc : c.line = s.endLine
      · obtain ⟨more, slots, qs, h⟩ := ih (s.append c) hes
        exact ⟨_, _, _, h.append hc⟩
      · obtain ⟨more, slots, qs, h⟩ := ih (s.push (Shelf.statement c)) hes
        obtain ⟨q, hq⟩ := Settled.push (e := .comment c) (by rw [Shelf.add, if_neg hc]; rfl) he
          (by rintro d ⟨⟩; exact hc) h
        exact ⟨_, _, _, hq⟩

lemma entries_split (ps : List Placed) (cs : List Comment) :
    (entries ps cs).filterMap Entry.stmt? = ps ∧
      (entries ps cs).filterMap Entry.comment? = cs := by
  induction ps, cs using entries.induct with
  | case1 cs => simp [entries, List.filterMap_map, Function.comp_def, Entry.stmt?, Entry.comment?]
  | case2 p ps => simp [entries, List.filterMap_map, Function.comp_def, Entry.stmt?, Entry.comment?]
  | case3 p ps c cs hle ih =>
    rw [entries, if_pos hle]
    exact ⟨congrArg (p :: ·) ih.1, ih.2⟩
  | case4 p ps c cs hle ih =>
    rw [entries, if_neg hle]
    exact ⟨ih.1, congrArg (c :: ·) ih.2⟩

lemma filterMap_stmt?_entries (x : Slot) : x.entries.filterMap Entry.stmt? = x.entry.stmt?.toList := by
  have hcomments : (x.trailing.map Entry.comment).filterMap Entry.stmt? = [] := by
    simp [Entry.stmt?]
  rw [Slot.entries, List.filterMap_cons, hcomments]
  cases x.entry <;> rfl

lemma filterMap_comment?_entries (x : Slot) : x.entries.filterMap Entry.comment? = x.comments := by
  have hcomments : (x.trailing.map Entry.comment).filterMap Entry.comment? = x.trailing := by
    simp [List.filterMap_map, Function.comp_def, Entry.comment?]
  rw [Slot.entries, List.filterMap_cons, hcomments, Slot.comments]
  cases x.entry <;> rfl

lemma filterMap_reading (leads : List Comment) (slots : List Slot) :
    (reading leads slots).filterMap Entry.stmt? = slots.filterMap (·.entry.stmt?) ∧
      (reading leads slots).filterMap Entry.comment? = leads ++ slots.flatMap Slot.comments := by
  rw [reading, List.filterMap_append, List.filterMap_append, List.filterMap_flatMap,
    List.filterMap_flatMap]
  simp only [filterMap_stmt?_entries, filterMap_comment?_entries]
  constructor
  · rw [List.filterMap_eq_flatMap_toList _ slots]
    simp [Entry.stmt?]
  · simp [List.filterMap_map, Function.comp_def, Entry.comment?]

lemma ascending_of_rising {es : List Entry} {a b : Nat} (h : Rising a (es.flatMap Entry.starts) b)
    (hk : ∀ p, .stmt p ∈ es → p.shape.kind.isStmt = true) :
    es.Pairwise fun d e => d.start < e.start := by
  have hmem : ∀ e ∈ es, e.start ∈ e.starts := by
    rintro (p | c) he
    · rw [Entry.starts, Placed.starts_node, if_pos (hk p he)]
      exact List.mem_append_left _ (List.mem_singleton_self _)
    · exact List.mem_singleton_self _
  exact (List.pairwise_flatMap.1 h.pairwise).2.imp_of_mem fun hd he hlt =>
    hlt _ (hmem _ hd) _ (hmem _ he)

lemma mem_of_stmt_mem_entries {ps : List Placed} {cs : List Comment} {p : Placed}
    (h : .stmt p ∈ entries ps cs) : p ∈ ps :=
  (entries_split ps cs).1 ▸ List.mem_filterMap.2 ⟨_, h, rfl⟩

lemma partition_attach {comments : List Comment} {opener closer : Token} {os : List Occupant}
    (hp : comments.Pairwise fun c d => c.start < d.start) (hl : Lined opener.stop os closer.start)
    (hs : ∀ o ∈ os, o.stmt.layout.trailing = none ∧ o.stmt.shape.kind.isStmt = true) :
    ∃ leads slots, Partition comments opener closer os leads slots
      (attach comments opener closer os).1 (attach comments opener closer os).2 := by
  have hstmt : ∀ p, .stmt p ∈ entries (os.map (·.stmt)) (free comments opener closer os) →
      p.layout.trailing = none ∧ p.shape.kind.isStmt = true := by
    intro p he
    obtain ⟨o, ho, rfl⟩ := List.mem_map.1 (mem_of_stmt_mem_entries he)
    exact hs o ho
  have htrailing : ∀ e ∈ entries (os.map (·.stmt)) (free comments opener closer os),
      e.placed.layout.trailing = none := by
    rintro (p | c) he
    · exact (hstmt p he).1
    · rfl
  obtain ⟨hstmts, hcomments⟩ := entries_split (os.map (·.stmt)) (free comments opener closer os)
  obtain ⟨leads, slots, qs, h⟩ := exists_settled ⟨[], none, opener.line⟩ _ htrailing
  obtain ⟨hstmts', hcomments'⟩ := filterMap_reading leads slots
  obtain ⟨hresult, hlead⟩ := h.result
  have hascending := ascending_of_rising (rising_free hp hl) fun p he => (hstmt p he).2
  rw [h.entries] at hstmts' hcomments'
  rw [Shelf.extend_nil, List.append_nil] at hresult
  rw [Shelf.extend_nil] at hlead
  refine ⟨leads, slots, hcomments'.symm.trans hcomments, hstmts'.symm.trans hstmts,
    h.entries ▸ hascending, hlead, ?_, h.joins, h.seated⟩
  rw [attach, hresult, List.reverse_reverse]
  exact h.fills

lemma Partition.mem {comments : List Comment} {opener closer : Token} {os : List Occupant}
    {leads : List Comment} {slots : List Slot} {qs : List Placed} {lead : Option String} {q : Placed}
    (h : Partition comments opener closer os leads slots qs lead) (hq : q ∈ qs) :
    ∃ p : Placed, ((∃ o ∈ os, o.stmt = p) ∨ ∃ c ∈ comments, Shelf.statement c = p) ∧
      q.span = p.span ∧ q.shape = p.shape := by
  obtain ⟨x, hx, _, rfl⟩ : ∃ x ∈ slots, x.Fills q := by
    obtain ⟨i, hi, rfl⟩ := List.getElem_of_mem hq
    exact ⟨_, List.getElem_mem (h.fills.length_eq ▸ hi), h.fills.get _ hi⟩
  refine ⟨x.entry.placed, ?_, rfl, rfl⟩
  cases he : x.entry with
  | stmt p =>
    have hp : p ∈ os.map (·.stmt) := h.stmts ▸ List.mem_filterMap.2 ⟨x, hx, by rw [he]; rfl⟩
    exact .inl (List.mem_map.1 hp)
  | comment c =>
    have hc : c ∈ leads ++ slots.flatMap Slot.comments :=
      List.mem_append_right _ (List.mem_flatMap.2 ⟨x, hx, by simp [Slot.comments, he, Entry.comment?]⟩)
    exact .inr ⟨c, (List.mem_filter.1 (h.each ▸ hc)).1, rfl⟩

lemma Partition.exists_of_mem {comments : List Comment} {opener closer : Token} {os : List Occupant}
    {leads : List Comment} {slots : List Slot} {qs : List Placed} {lead : Option String} {o : Occupant}
    (h : Partition comments opener closer os leads slots qs lead) (ho : o ∈ os) :
    ∃ blank text, o.stmt.laidOut blank text ∈ qs := by
  have hmem : o.stmt ∈ slots.filterMap (·.entry.stmt?) := h.stmts ▸ List.mem_map_of_mem ho
  obtain ⟨x, hx, hxo⟩ := List.mem_filterMap.1 hmem
  obtain ⟨i, hi, rfl⟩ := List.getElem_of_mem hx
  obtain ⟨blank, hq⟩ := h.fills.get hi (h.fills.length_eq ▸ hi)
  refine ⟨blank, texts none (slots[i]).trailing, ?_⟩
  cases he : (slots[i]).entry with
  | comment => simp [he, Entry.stmt?] at hxo
  | stmt p =>
    obtain rfl : p = o.stmt := by simpa [he, Entry.stmt?] using hxo
    have hp : (slots[i]).entry.placed = o.stmt := by rw [he]; rfl
    exact hp ▸ hq ▸ List.getElem_mem _

end Attach

end ParallelTests
