import ParallelTests.Proofs.Edit.Leads
import ParallelTests.Proofs.Edit.Relaid

namespace ParallelTests

open Scan

namespace Part

def modifyAt (f : Node → Node) : Address → Part → Part
  | a, node n => node (n.modifyAt f a)
  | a, line n => line (n.modifyAt f a)
  | i :: a, pieces ns ps => pieces (ns.modify i (.modifyAt f a)) ps
  | i :: a, stmts fresh last ns => stmts fresh last (ns.modify i (.modifyAt f a))
  | [], part => part

def Hosts (m : Node) : Address → Part → Prop
  | a, node n | a, line n => Formed n ∧ Leads n a m
  | i :: a, pieces ns ps => (ps.filterMap Piece.child?).Nodup ∧ i ∈ ps.filterMap Piece.child? ∧
      ∃ n, ns[i]? = some n ∧ Formed n ∧ Leads n a m
  | i :: a, stmts _ _ ns => ∃ n, ns[i]? = some n ∧ Formed n ∧ Leads n a m
  | [], _ => False

end Part

lemma Leads.kind_ne_block {n m : Node} {a : Address} (h : Leads n a m) (hn : n.kind ≠ .block)
    (hc : ∀ c ∈ n.children, ∀ a, Leads c a m → m.kind ≠ .block) : m.kind ≠ .block := by
  cases h with
  | here => exact hn
  | step hi _ h => exact hc _ (List.mem_of_getElem? hi) _ h

lemma Insert.kind_ne_block {i : Insert} {a : Address} {m : Node} (h : Leads i.node a m) :
    m.kind ≠ .block := by
  have hident (name : String) (a : Address) (h : Leads (.bare (.ident name)) a m) :
      m.kind ≠ .block :=
    h.kind_ne_block (by rintro ⟨⟩) (by simp [Node.children, Node.bare, Node.shape, Shape.children])
  cases i with
  | rebind name =>
    refine h.kind_ne_block (by rintro ⟨⟩) (List.forall_mem_cons.2 ⟨hident name, ?_⟩)
    exact List.forall_mem_singleton.2 (hident name)
  | call handle method =>
    refine h.kind_ne_block (by rintro ⟨⟩) (List.forall_mem_singleton.2 fun a h => ?_)
    refine h.kind_ne_block (by rintro ⟨⟩) (List.forall_mem_singleton.2 fun a h => ?_)
    refine h.kind_ne_block (by rintro ⟨⟩) (List.forall_mem_cons.2 ⟨hident handle, ?_⟩)
    exact List.forall_mem_singleton.2 (hident method)

lemma modify_append (xs ys : List Node) (k : Nat) (f : Node → Node) :
    (xs ++ ys).modify (xs.length + k) f = xs ++ ys.modify k f := by
  induction xs with
  | nil => simp
  | cons x xs ih =>
    rw [List.length_cons, Nat.add_right_comm, List.cons_append, List.modify_succ_cons, ih,
      List.cons_append]

lemma Shows.mem {ns : List Node} {ps : List Piece} {i : Nat} {n : Node} (h : Shows ns ps)
    (hi : ns[i]? = some n) (hs : n.kind.isSilent = false) :
    (ps.filterMap Piece.child?).Nodup ∧ i ∈ ps.filterMap Piece.child? := by
  obtain ⟨_, k, hk, hsil⟩ := h
  obtain ⟨hlt, rfl⟩ := List.getElem?_eq_some_iff.1 hi
  rw [hk]
  refine ⟨List.nodup_range', List.mem_range'_1.2 ⟨?_, ?_⟩⟩
  · by_contra hik
    have := hsil _ (List.mem_take_iff_getElem.2 ⟨i, by omega, rfl⟩)
    simp [this] at hs
  · omega

variable {src : List Char} {extra : Nat → List Lexeme} {a b : Nat} {block : Node}

def Opens (src : List Char) (extra : Nat → List Lexeme) (block : Node) (part : Part) (a b : Nat) :
    Prop :=
  ∀ address, part.Hosts block address → ∃ p q, a ≤ p ∧ p ≤ q ∧ q ≤ b ∧
    Laid src extra (.node block) p q ∧
    ∀ (f : Node → Node) (extra' : Nat → List Lexeme), (∀ m : Node, m.Alike (f m)) →
      (∀ o, o < p ∨ q ≤ o → extra' o = extra o) → Laid src extra' (.node (f block)) p q →
        Laid src extra' (part.modifyAt f address) a b

lemma opens_woven {span : Option Span} {layout : Layout} {ps : List Piece} {shape : Shape}
    (hkind : block.kind = .block) (hk : shape.kind ≠ .block)
    (ih : Opens src extra block (.pieces shape.children ps) a b) :
    Opens src extra block (.node (.mk span layout (some ps) shape)) a b := by
  rintro address ⟨hf, hl⟩
  cases hl with
  | here => exact absurd hkind hk
  | @step _ c _ j rest hj hs hl =>
    obtain ⟨hnd, hmem⟩ := hf.backed.2.mem hj hs
    obtain ⟨p, q, hp, hpq, hq, hb, hswap⟩ := ih (j :: rest)
      ⟨hnd, hmem, c, hj, hf.child (List.mem_of_getElem? hj), hl⟩
    refine ⟨p, q, hp, hpq, hq, hb, fun f extra' hf he hl => ?_⟩
    refine .woven (by rwa [Shape.kind_mapChildren]) ?_
    rw [Shape.children_mapChildren, Node.mapIdx_eq_modify]
    exact hswap f extra' hf he hl

lemma hosts_own {span : Option Span} {layout : Layout} {pieces : Option (List Piece)}
    {ins : List Insert} {own : List Node} {oneLine : Bool} {lead : Option String} {j : Nat}
    {rest : Address} {fresh : Bool} {last : Lexeme} (hkind : block.kind = .block)
    (hf : Formed (.mk span layout pieces (.block (ins.map Insert.node ++ own) oneLine lead)))
    (hl : Leads (.mk span layout pieces (.block (ins.map Insert.node ++ own) oneLine lead))
      (j :: rest) block) :
    ∃ k, j = ins.length + k ∧ (Part.stmts fresh last own).Hosts block (k :: rest) := by
  cases hl with
  | @step _ c _ _ _ hj _ hl =>
    have hj' : (ins.map Insert.node ++ own)[j]? = some c := hj
    rcases Nat.lt_or_ge j ins.length with hlt | hge
    · rw [List.getElem?_append_left (by simpa using hlt), List.getElem?_map] at hj'
      obtain ⟨x, _, rfl⟩ := Option.map_eq_some_iff.1 hj'
      exact absurd hkind (Insert.kind_ne_block hl)
    · obtain ⟨k, rfl⟩ := Nat.exists_eq_add_of_le hge
      rw [List.getElem?_append_right (by simp), List.length_map, Nat.add_sub_cancel_left] at hj'
      exact ⟨k, rfl, c, hj', hf.child (List.mem_of_getElem? hj), hl⟩

lemma opens_block {span : Span} {layout : Layout} {pieces : Option (List Piece)}
    {ins : List Insert} {own : List Node} {oneLine : Bool} {lead : Option String}
    (hkind : block.kind = .block) (hstop : span.stop = b + 1)
    (ho : Hop src span.start [.lexeme span.start .openCurly] (span.start + 1))
    (hc : Hop src b [.lexeme b .closeCurly] (b + 1)) (hsync : Sync src span.start)
    (hv : ∀ i ∈ ins, i.Valid) (he : extra span.start = ins.flatMap Insert.lexemes)
    (he' : extra b = []) (hone : oneLine = true → ins = []) (hl : ∀ text ∈ lead, IsNote text)
    (h : Laid src extra (.stmts true .openCurly own) (span.start + 1) b)
    (ih : Opens src extra block (.stmts true .openCurly own) (span.start + 1) b) :
    Opens src extra block
      (.node (.mk (some span) layout pieces (.block (ins.map Insert.node ++ own) oneLine lead)))
      span.start (b + 1) := by
  rintro address ⟨hf, hlead⟩
  have hle := h.le
  cases hlead with
  | here =>
    exact ⟨_, _, Nat.le_refl _, by omega, Nat.le_refl _, .block hstop ho hc hsync hv he he' hone hl h,
      fun _ _ _ _ hlaid => hlaid⟩
  | @step _ c _ j rest hj hs hlead =>
    obtain ⟨k, rfl, hosts⟩ := hosts_own hkind hf (.step hj hs hlead)
    obtain ⟨p, q, hp, hpq, hq, hb, hswap⟩ := ih (k :: rest) hosts
    refine ⟨p, q, by omega, hpq, by omega, hb, fun f extra' hf hx hlaid => ?_⟩
    have hmod : (ins.map Insert.node ++ own).mapIdx
        (fun j c => if j = ins.length + k then c.modifyAt f rest else c) =
          ins.map Insert.node ++ own.modify k (.modifyAt f rest) := by
      rw [Node.mapIdx_eq_modify, ← List.length_map (f := Insert.node), modify_append]
    have hnode : Laid src extra' (.node (.mk (some span) layout pieces (.block
        (ins.map Insert.node ++ own.modify k (.modifyAt f rest)) oneLine lead)))
        span.start (b + 1) :=
      .block hstop ho hc hsync hv ((hx _ (.inl (by omega))).trans he) ((hx _ (.inr hq)).trans he')
        hone hl (hswap f extra' hf hx hlaid)
    rw [← hmod] at hnode
    exact hnode

lemma opens_text {ns : List Node} {ps : List Piece} {m : Nat} {ms : List Mark} (hsync : Sync src a)
    (hr : Reach src a ms m) (he : ∀ o, a ≤ o → o < m → extra o = [])
    (ih : Opens src extra block (.pieces ns ps) m b) :
    Opens src extra block (.pieces ns (.text (String.ofList (cut src a m)) :: ps)) a b := by
  rintro (_ | ⟨j, rest⟩) hh
  · exact hh.elim
  · obtain ⟨p, q, hp, hpq, hq, hb, hswap⟩ := ih (j :: rest) hh
    have hle := hr.le
    refine ⟨p, q, by omega, hpq, hq, hb, fun f extra' hf hx hlaid => ?_⟩
    exact .text hsync hr (fun o h h' => (hx o (.inl (by omega))).trans (he o h h'))
      (hswap f extra' hf hx hlaid)

lemma opens_child {ns : List Node} {ps : List Piece} {j m : Nat} {n : Node}
    (hj : ns[j]? = some n) (hn : Laid src extra (.node n) a m)
    (h : Laid src extra (.pieces ns ps) m b) (ihn : Opens src extra block (.node n) a m)
    (ih : Opens src extra block (.pieces ns ps) m b) :
    Opens src extra block (.pieces ns (.child j :: ps)) a b := by
  rintro (_ | ⟨k, rest⟩) hh
  · exact hh.elim
  obtain ⟨hnd, hmem, c, hc, hf, hl⟩ := hh
  have hle := hn.le
  have hle' := h.le
  rw [List.filterMap_cons_some (f := Piece.child?) (b := j) rfl] at hnd hmem
  obtain ⟨hj', hnd⟩ := List.nodup_cons.1 hnd
  by_cases hk : j = k
  · subst hk
    obtain rfl := Option.some.inj (hc.symm.trans hj)
    obtain ⟨p, q, hp, hpq, hq, hb, hswap⟩ := ihn rest ⟨hf, hl⟩
    refine ⟨p, q, hp, hpq, by omega, hb, fun f extra' hf hx hlaid => ?_⟩
    refine .child (by rw [List.getElem?_modify_eq, hc]; rfl) (hswap f extra' hf hx hlaid) ?_
    refine (h.congr fun o _ _ => hx o (.inr (by omega))).congr_children fun i hi => ?_
    rw [List.getElem?_modify_ne]
    rintro rfl
    exact hj' (List.mem_filterMap.2 ⟨_, hi, rfl⟩)
  · have hmem' : k ∈ ps.filterMap Piece.child? := by simpa [Ne.symm hk] using hmem
    obtain ⟨p, q, hp, hpq, hq, hb, hswap⟩ := ih (k :: rest) ⟨hnd, hmem', c, hc, hf, hl⟩
    refine ⟨p, q, by omega, hpq, hq, hb, fun f extra' hf hx hlaid => ?_⟩
    refine .child ?_ (hn.congr fun o _ _ => hx o (.inl (by omega))) (hswap f extra' hf hx hlaid)
    rw [List.getElem?_modify_ne _ _ (Ne.symm hk), hj]

end ParallelTests
