import ParallelTests.Proofs.Edit.Leads
import ParallelTests.Proofs.Print.Emits

namespace ParallelTests

inductive Printable : Bool → Node → Prop
  | woven {span : Option Span} {layout : Layout} {ps : List Piece} {shape : Shape}
      (hk : shape.kind ≠ .block) (hi : ∀ m, .inline m ∉ ps)
      (hc : ∀ i c, .child i ∈ ps → shape.children[i]? = some c → Printable false c) :
      Printable false (.mk span layout (some ps) shape)
  | block {span : Option Span} {layout : Layout} {pieces : Option (List Piece)} {stmts : List Node}
      {oneLine : Bool} {lead : Option String} (h : ∀ n ∈ stmts, Printable true n) :
      Printable false (.mk span layout pieces (.block stmts oneLine lead))
  | insert {n : Node} (i : Insert) (h : n = i.node) : Printable false n
  | plain {n : Node} (hk : n.kind.isPlain = true) (h : Printable false n) : Printable true n
  | comment {span : Option Span} {layout : Layout} {text : String} :
      Printable true (.mk span layout none (.comment text))
  | clause {span : Option Span} {layout : Layout} {header : Node} {body : List Node}
      (hh : Printable false header) (hb : ∀ n ∈ body, Printable true n) :
      Printable true (.mk span layout none (.caseClause header body))
  | label {span : Option Span} {layout : Layout} {name : Node} (hn : Printable false name) :
      Printable true (.mk span layout none (.labeled name none))
  | labeled {span : Option Span} {layout : Layout} {name inside : Node}
      (hn : Printable false name) (hi : Printable false inside) :
      Printable true (.mk span layout none (.labeled name (some inside)))

namespace Printable

lemma of_isPlain {n : Node} (h : Printable true n) (hk : n.kind.isPlain = true) :
    Printable false n := by
  cases h with
  | plain _ h => exact h
  | comment => cases hk
  | clause => cases hk
  | label => cases hk
  | labeled => cases hk

end Printable

namespace Node

lemma prepend_of_ne {s n : Node} (h : n.kind ≠ .block) : prepend s n = n := by
  obtain ⟨span, layout, pieces, shape⟩ := n
  cases shape with
  | block => exact absurd rfl h
  | _ => rfl

lemma modifyAt_ident (s : Node) (name : String) (a : Address) :
    (bare (.ident name)).modifyAt (prepend s) a = bare (.ident name) := by
  cases a <;> rfl

lemma modifyAt_parallelCall (s : Node) (handle method : String) (a : Address) :
    (parallelCall handle method).modifyAt (prepend s) a = parallelCall handle method := by
  have hselector (a : Address) :
      (bare (.selector (bare (.ident handle)) (bare (.ident method)))).modifyAt (prepend s) a =
        bare (.selector (bare (.ident handle)) (bare (.ident method))) := by
    cases a with
    | nil => rfl
    | cons i a =>
      simp only [modifyAt, mapChildren, bare, withShape, shape, Shape.mapChildren]
      simp only [← bare.eq_1, modifyAt_ident, ite_self]
  have hcall (a : Address) :
      (bare (.call (bare (.selector (bare (.ident handle)) (bare (.ident method)))) [] false)).modifyAt
        (prepend s) a =
        bare (.call (bare (.selector (bare (.ident handle)) (bare (.ident method)))) [] false) := by
    cases a with
    | nil => rfl
    | cons i a =>
      have h := hselector a
      simp only [bare] at h
      simp [modifyAt, mapChildren, bare, withShape, shape, Shape.mapChildren, h]
  cases a with
  | nil => rfl
  | cons i a =>
    have h := hcall a
    simp only [bare] at h
    simp [parallelCall, modifyAt, mapChildren, bare, withShape, shape, Shape.mapChildren, h]

lemma modifyAt_rebinding (s : Node) (name : String) (a : Address) :
    (rebinding name).modifyAt (prepend s) a = rebinding name := by
  cases a with
  | nil => rfl
  | cons i a =>
    have h := modifyAt_ident s name a
    simp only [bare] at h
    simp [rebinding, modifyAt, mapChildren, bare, withShape, shape, Shape.mapChildren, h]

end Node

lemma Insert.modifyAt_node (i : Insert) (s : Node) (a : Address) :
    i.node.modifyAt (.prepend s) a = i.node := by
  cases i with
  | call handle method => exact Node.modifyAt_parallelCall s handle method a
  | rebind name => exact Node.modifyAt_rebinding s name a

namespace Printable

lemma insert_line (i : Insert) : Printable true i.node := by
  refine .plain ?_ (.insert i rfl)
  rcases i.kind_node with h | h <;> rw [h] <;> rfl

lemma either {line : Bool} {n m : Node} {p : Prop} [Decidable p] (hn : Printable line n)
    (hm : Printable line m) : Printable line (if p then n else m) := by
  split
  · exact hn
  · exact hm

theorem modifyAt {line : Bool} {n : Node} (h : Printable line n) (i : Insert) (a : Address) :
    Printable line (n.modifyAt (.prepend i.node) a) := by
  induction h generalizing a with
  | @woven span layout ps shape hk hi hc ih =>
    cases a with
    | nil =>
      have hself : Node.prepend i.node (.mk span layout (some ps) shape) = _ := Node.prepend_of_ne hk
      rw [Node.modifyAt, hself]
      exact .woven hk hi hc
    | cons j a =>
      refine .woven (by rwa [Shape.kind_mapChildren]) hi fun k c hk hcell => ?_
      rw [Shape.children_mapChildren, List.getElem?_mapIdx] at hcell
      obtain ⟨old, hold, rfl⟩ := Option.map_eq_some_iff.1 hcell
      exact either (ih k old hk hold a) (hc k old hk hold)
  | @block span layout pieces stmts oneLine lead hs ih =>
    cases a with
    | nil => exact .block (List.forall_mem_cons.2 ⟨insert_line i, hs⟩)
    | cons j a =>
      refine .block fun m hm => ?_
      obtain ⟨k, hk, rfl⟩ := List.mem_mapIdx.1 hm
      exact either (ih _ (List.getElem_mem hk) a) (hs _ (List.getElem_mem hk))
  | insert o h =>
    rw [h, Insert.modifyAt_node]
    exact .insert o rfl
  | plain hk _ ih =>
    refine .plain ?_ (ih a)
    rwa [(Node.alike_modifyAt (Node.alike_prepend _) a _).kind]
  | comment => cases a <;> exact .comment
  | clause hh hb ihh ihb =>
    cases a with
    | nil => exact .clause hh hb
    | cons j a =>
      refine .clause (either (ihh a) hh) fun m hm => ?_
      obtain ⟨k, hk, rfl⟩ := List.mem_mapIdx.1 hm
      exact either (ihb _ (List.getElem_mem hk) a) (hb _ (List.getElem_mem hk))
  | label hn ihn =>
    cases a with
    | nil => exact .label hn
    | cons j a => exact .label (either (ihn a) hn)
  | labeled hn hi ihn ihi =>
    cases a with
    | nil => exact .labeled hn hi
    | cons j a => exact .labeled (either (ihn a) hn) (either (ihi a) hi)

end Printable

namespace Printer

lemma emitPieces_ok {rebase : Option Rebase} {children : List Node} {ps : List Piece}
    (hi : ∀ m, .inline m ∉ ps)
    (hc : ∀ i c, .child i ∈ ps → children[i]? = some c → ∀ page, ∃ page', emit rebase page c = .ok page')
    (page : Page) : ∃ page', ps.foldlM (emitPiece rebase children) page = .ok page' := by
  induction ps generalizing page with
  | nil => exact ⟨page, rfl⟩
  | cons p ps ih =>
    have hone : ∃ page₁, emitPiece rebase children page p = .ok page₁ := by
      cases p with
      | text text => exact ⟨_, rfl⟩
      | inline m => exact absurd (by simp) (hi m)
      | child i =>
        rw [emitPiece]
        split
        · next c hci => exact hc i c (by simp) hci page
        · exact ⟨page, rfl⟩
    obtain ⟨page₁, hone⟩ := hone
    obtain ⟨page', hrest⟩ := ih (fun m h => hi m (by simp [h])) (fun i c h => hc i c (by simp [h])) page₁
    exact ⟨page', by rw [List.foldlM_cons, hone]; exact hrest⟩

lemma emitTail_ok {rebase : Option Rebase} {ns : List Node}
    (h : ∀ n ∈ ns, ∀ page, ∃ page', emit rebase page n = .ok page') (page : Page) :
    ∃ page', emitTail rebase page ns = .ok page' := by
  induction ns generalizing page with
  | nil => exact ⟨page, rfl⟩
  | cons n ns ih =>
    obtain ⟨page₁, hone⟩ := h n (by simp) (page.write "; ")
    obtain ⟨page', hrest⟩ := ih (fun m hm => h m (by simp [hm])) page₁
    exact ⟨page', by rw [emitTail, hone]; exact hrest⟩

lemma emitAll_ok {rebase : Option Rebase} {ns : List Node}
    (h : ∀ n ∈ ns, ∀ page, ∃ page', emit rebase page n = .ok page') (page : Page) :
    ∃ page', emitAll rebase "; " page ns = .ok page' := by
  cases ns with
  | nil => exact ⟨page, emitAll.eq_1 ..⟩
  | cons n ns =>
    obtain ⟨page₁, hone⟩ := h n (by simp) page
    obtain ⟨page', hrest⟩ := emitTail_ok (fun m hm => h m (List.mem_cons_of_mem n hm)) page₁
    exact ⟨page', by rw [emitAll_cons, hone]; exact hrest⟩

lemma emitLines_ok {rebase : Option Rebase} {base : String} {ns : List Node}
    (h : ∀ n ∈ ns, ∀ page, ∃ page', emitLine rebase base page n = .ok page') (first : Bool)
    (page : Page) : ∃ page', emitLines rebase base first page ns = .ok page' := by
  induction ns generalizing first page with
  | nil => exact ⟨page, emitLines.eq_1 ..⟩
  | cons n ns ih =>
    obtain ⟨page₁, hone⟩ := h n (by simp)
      (if !first && n.layout.blankBefore then page.write "\n" else page)
    obtain ⟨page', hrest⟩ := ih (fun m hm => h m (by simp [hm])) false page₁
    exact ⟨page', by rw [emitLines]; simp only [hone]; exact hrest⟩

structure Emitted (line : Bool) (n : Node) : Prop where
  here : line = false ∨ n.kind.isPlain = true → ∀ rebase page, ∃ page', emit rebase page n = .ok page'
  line : line = true → ∀ rebase base page, ∃ page', emitLine rebase base page n = .ok page'

lemma Emitted.of_emit {n : Node} (h : ∀ rebase page, ∃ page', emit rebase page n = .ok page') :
    Emitted false n :=
  ⟨fun _ => h, by simp⟩

lemma Emitted.of_emitLine {n : Node} (hk : n.kind.isPlain = false)
    (h : ∀ rebase base page, ∃ page', emitLine rebase base page n = .ok page') : Emitted true n :=
  ⟨by simp [hk], fun _ => h⟩

lemma emit_insert_ok (i : Insert) (rebase : Option Rebase) (page : Page) :
    ∃ page', emit rebase page i.node = .ok page' := by
  cases i <;>
    simp [Insert.node, Node.parallelCall, Node.rebinding, Node.bare, emit, emitAll, bind, Except.bind,
      pure, Except.pure]

lemma emit_block_ok {span : Option Span} {layout : Layout} {pieces : Option (List Piece)}
    {stmts : List Node} {oneLine : Bool} {lead : Option String}
    (h : ∀ n ∈ stmts, Emitted true n) (rebase : Option Rebase) (page : Page) :
    ∃ page', emit rebase page (.mk span layout pieces (.block stmts oneLine lead)) = .ok page' := by
  rw [emit]
  dsimp only
  split
  · exact ⟨_, rfl⟩
  · split
    · next hfits =>
      rw [Bool.and_eq_true, fitsLine, Bool.and_eq_true, Bool.not_eq_true'] at hfits
      have hone (n : Node) (hn : n ∈ stmts) (page : Page) :
          ∃ page', emit rebase page n = .ok page' := by
        have hline : needsLine n = false := by simpa using List.any_eq_false.1 hfits.2.2 n hn
        exact (h n hn).here (.inr (isPlain_of_needsLine hline)) rebase page
      obtain ⟨page₁, hp⟩ := emitAll_ok hone (page.write "\x7b ")
      exact ⟨_, by rw [hp]; rfl⟩
    · obtain ⟨page₁, hp⟩ := emitLines_ok (fun n hn => (h n hn).line rfl rebase page.indent) true
        (page.write ("\x7b" ++ (lead.map (" " ++ ·)).getD "" ++ "\n"))
      exact ⟨_, by rw [hp]; rfl⟩

lemma emitLine_plain_ok {n : Node} (hc : n.kind ≠ .caseClause) (hl : n.kind ≠ .labeled)
    (h : ∀ rebase page, ∃ page', emit rebase page n = .ok page') (rebase : Option Rebase)
    (base : String) (page : Page) : ∃ page', emitLine rebase base page n = .ok page' := by
  obtain ⟨page₁, hp⟩ := h (moved n (base ++ "\t")) (page.write (base ++ "\t"))
  exact ⟨_, by rw [emitLine_eq hc hl, hp]; rfl⟩

theorem emitted_of_printable {line : Bool} {n : Node} (h : Printable line n) : Emitted line n := by
  induction h with
  | woven hk hi _ ih =>
    refine .of_emit fun rebase page => ?_
    rw [emit_woven hk]
    exact emitPieces_ok hi (fun i c hic hc page => (ih i c hic hc).here (.inl rfl) rebase page) page
  | block _ ih => exact .of_emit (emit_block_ok ih)
  | insert i h => exact h ▸ .of_emit (emit_insert_ok i)
  | plain hk _ ih =>
    have hemit := ih.here (.inl rfl)
    refine ⟨fun _ => hemit, fun _ => emitLine_plain_ok ?_ ?_ hemit⟩
    · intro hn
      simp [hn, Kind.isPlain] at hk
    · intro hn
      simp [hn, Kind.isPlain] at hk
  | @comment span layout text =>
    have hemit (rebase : Option Rebase) (page : Page) :
        emit rebase page (.mk span layout none (.comment text)) = .ok (page.write text) := by
      rw [emit]
      rfl
    exact .of_emitLine rfl
      (emitLine_plain_ok (by rintro ⟨⟩) (by rintro ⟨⟩) fun rebase page => ⟨_, hemit rebase page⟩)
  | clause _ _ ihh ihb =>
    refine .of_emitLine rfl fun rebase base page => ?_
    obtain ⟨page₁, hh⟩ := ihh.here (.inl rfl) rebase (page.write base)
    rw [emitLine]
    simp only [hh, bind, Except.bind]
    exact emitLines_ok (fun n hn => (ihb n hn).line rfl rebase base) true _
  | label _ ihn =>
    refine .of_emitLine rfl fun rebase base page => ?_
    obtain ⟨page₁, hn⟩ := ihn.here (.inl rfl) rebase (page.write base)
    exact ⟨_, by rw [emitLine, hn]; rfl⟩
  | @labeled _ _ _ inside _ _ ihn ihi =>
    refine .of_emitLine rfl fun rebase base page => ?_
    obtain ⟨page₁, hn⟩ := ihn.here (.inl rfl) rebase (page.write base)
    obtain ⟨page₂, hi⟩ := ihi.here (.inl rfl) (moved inside (base ++ "\t"))
      ((page₁.write ":").write ("\n" ++ (base ++ "\t")))
    rw [emitLine]
    simp only [hn, bind, Except.bind, hi]
    exact ⟨_, rfl⟩

lemma render_ok {n : Node} (h : Printable false n) : ∃ text, n.render = .ok text := by
  obtain ⟨page, hp⟩ := (emitted_of_printable h).here (.inl rfl) none .empty
  exact ⟨page.text, by rw [Node.render, hp]⟩

end Printer

end ParallelTests
