import ParallelTests.Proofs.Edit.Open

namespace ParallelTests

open Scan

variable {src : List Char} {extra : Nat → List Lexeme} {a b : Nat} {block : Node}

lemma opens_comment {fresh : Bool} {last : Lexeme} {span : Option Span} {layout : Layout}
    {closed : Bool} {text : String} {ns : List Node} (hkind : block.kind = .block)
    (hl : layout.Sound) (ht : Note closed text.toList)
    (hc : closed = true ∨ layout.trailing = none)
    (ih : Opens src extra block (.stmts fresh last ns) a b) :
    Opens src extra block (.stmts fresh last (.mk span layout none (.comment text) :: ns)) a b := by
  rintro (_ | ⟨_ | k, rest⟩) hh
  · exact hh.elim
  · obtain ⟨c, hc, _, hlead⟩ := hh
    obtain rfl := Option.some.inj hc
    refine absurd hkind (hlead.kind_ne_block (by rintro ⟨⟩) ?_)
    simp [Node.children, Node.shape, Shape.children]
  · obtain ⟨p, q, hp, hpq, hq, hb, hswap⟩ := ih (k :: rest) hh
    exact ⟨p, q, hp, hpq, hq, hb, fun f extra' hf hx hlaid =>
      .comment hl ht hc (hswap f extra' hf hx hlaid)⟩

lemma opens_stmt {fresh fresh' : Bool} {last last' : Lexeme} {n : Node} {ns : List Node}
    {m e start : Nat} {gap ms : List Mark} (hr : Reach src a gap m) (hg : ∀ m ∈ gap, m.isGap = true)
    (hend : if fresh then last.endsLine = false else ∃ m ∈ gap, m.ends last.endsLine = true)
    (hn : Laid src extra (.line n) m e) (hm : Reach src m (ms ++ [.lexeme start last']) e)
    (hsync : Sync src m) (hlast : last'.isSemicolon = false)
    (hfresh : fresh' = true → n.kind = .caseClause) (h : Laid src extra (.stmts fresh' last' ns) e b)
    (ihn : Opens src extra block (.line n) m e)
    (ih : Opens src extra block (.stmts fresh' last' ns) e b) :
    Opens src extra block (.stmts fresh last (n :: ns)) a b := by
  have hle := hr.le
  have hle' := hn.le
  have hle'' := h.le
  rintro (_ | ⟨_ | k, rest⟩) hh
  · exact hh.elim
  · obtain ⟨c, hc, hf, hl⟩ := hh
    obtain rfl := Option.some.inj hc
    obtain ⟨p, q, hp, hpq, hq, hb, hswap⟩ := ihn rest ⟨hf, hl⟩
    refine ⟨p, q, by omega, hpq, by omega, hb, fun f extra' hf hx hlaid => ?_⟩
    refine .stmt hr hg hend (hswap f extra' hf hx hlaid) hm hsync hlast (fun he => ?_)
      (h.congr fun o _ _ => hx o (.inr (by omega)))
    rw [(Node.alike_modifyAt hf rest n).kind, hfresh he]
  · obtain ⟨p, q, hp, hpq, hq, hb, hswap⟩ := ih (k :: rest) hh
    exact ⟨p, q, by omega, hpq, hq, hb, fun f extra' hf hx hlaid => .stmt hr hg hend
      (hn.congr fun o _ _ => hx o (.inl (by omega))) hm hsync hlast hfresh
      (hswap f extra' hf hx hlaid)⟩

lemma opens_plain {n : Node} (hk : n.kind.isPlain = true) (hl : n.layout.Sound)
    (ih : Opens src extra block (.node n) a b) : Opens src extra block (.line n) a b := by
  intro address hh
  obtain ⟨p, q, hp, hpq, hq, hb, hswap⟩ := ih address hh
  refine ⟨p, q, hp, hpq, hq, hb, fun f extra' hf hx hlaid => ?_⟩
  have halike := Node.alike_modifyAt hf address n
  exact .plain (halike.kind ▸ hk) (halike.layout ▸ hl) (hswap f extra' hf hx hlaid)

lemma modifyAt_header (f : Node → Node) (a : Address) {cspan : Option Span} {layout : Layout}
    {pieces : Option (List Piece)} {header : Node} {body : List Node} :
    (Node.mk cspan layout pieces (.caseClause header body)).modifyAt f (0 :: a) =
      .mk cspan layout pieces (.caseClause (header.modifyAt f a) body) := by
  have hbody : (body.mapIdx fun _ c => c) = body := List.ext_getElem? fun j => by simp
  simp [Node.modifyAt, Node.mapChildren, Node.withShape, Node.shape, Shape.mapChildren, hbody]

lemma modifyAt_body (f : Node → Node) (k : Nat) (a : Address) {cspan : Option Span} {layout : Layout}
    {pieces : Option (List Piece)} {header : Node} {body : List Node} :
    (Node.mk cspan layout pieces (.caseClause header body)).modifyAt f ((k + 1) :: a) =
      .mk cspan layout pieces (.caseClause header (body.modify k (.modifyAt f a))) := by
  rw [← Node.mapIdx_eq_modify]
  simp [Node.modifyAt, Node.mapChildren, Node.withShape, Node.shape, Shape.mapChildren]

lemma opens_clause {span hspan : Option Span} {layout hlayout : Layout} {ps tail : List Piece}
    {shape : Shape} {body : List Node} {h start : Nat} {ms : List Mark}
    (hkind : block.kind = .block) (hl : layout.trailing = none) (hk : shape.kind ≠ .block)
    (hsync : Sync src a) (hh : Laid src extra (.pieces shape.children ps) a h)
    (ht : tail = [] ∨ ∃ text, IsNote text ∧ tail = [.text (" " ++ text)])
    (hm : Reach src a (ms ++ [.lexeme start .colon]) h)
    (hb : Laid src extra (.stmts true .colon body) h b)
    (ihh : Opens src extra block (.pieces shape.children ps) a h)
    (ihb : Opens src extra block (.stmts true .colon body) h b) :
    Opens src extra block (.line (.mk span layout none
      (.caseClause (.mk hspan hlayout (some (ps ++ tail)) shape) body))) a b := by
  rintro address ⟨hf, hlead⟩
  have hle := hh.le
  have hle' := hb.le
  cases hlead with
  | here => cases hkind
  | @step _ c _ j rest hj hs hlead =>
    have hfc := hf.child (List.mem_of_getElem? hj)
    cases j with
    | zero =>
      obtain rfl := Option.some.inj hj
      cases hlead with
      | here => exact absurd hkind hk
      | @step _ c' _ k rest hk' hs' hlead =>
        have htail : tail.filterMap Piece.child? = [] := by
          rcases ht with rfl | ⟨text, _, rfl⟩ <;> rfl
        have hshow := hfc.backed.2.mem hk' hs'
        rw [List.filterMap_append, htail, List.append_nil] at hshow
        obtain ⟨p, q, hp, hpq, hq, hblock, hswap⟩ := ihh (k :: rest) ⟨hshow.1, hshow.2, c', hk',
          hfc.child (List.mem_of_getElem? hk'), hlead⟩
        refine ⟨p, q, hp, hpq, by omega, hblock, fun f extra' hf hx hlaid => ?_⟩
        have hheader : Laid src extra' (.pieces (shape.mapChildren fun j c =>
            if j = k then c.modifyAt f rest else c).children ps) a h := by
          rw [Shape.children_mapChildren, Node.mapIdx_eq_modify]
          exact hswap f extra' hf hx hlaid
        rw [Part.modifyAt, modifyAt_header]
        exact .clause hl (by rwa [Shape.kind_mapChildren]) hsync hheader ht hm
          (hb.congr fun o _ _ => hx o (.inr (by omega)))
    | succ k =>
      obtain ⟨p, q, hp, hpq, hq, hblock, hswap⟩ := ihb (k :: rest) ⟨c, hj, hfc, hlead⟩
      refine ⟨p, q, by omega, hpq, hq, hblock, fun f extra' hf hx hlaid => ?_⟩
      rw [Part.modifyAt, modifyAt_body]
      exact .clause hl hk hsync (hh.congr fun o _ _ => hx o (.inl (by omega))) ht hm
        (hswap f extra' hf hx hlaid)

lemma Leads.of_label {name : Node} {stmt : Option Node} {nspan : Option Span} {layout : Layout}
    {pieces : Option (List Piece)} {address : Address} {m : Node} (hm : m.kind = .block)
    (hf : Formed (.mk nspan layout pieces (.labeled name stmt)))
    (h : Leads (.mk nspan layout pieces (.labeled name stmt)) address m) :
    ∃ inside rest, stmt = some inside ∧ address = 1 :: rest ∧ Leads inside rest m := by
  cases h with
  | here => cases hm
  | @step _ c _ j rest hj hs hlead =>
    match j, stmt, hj with
    | 0, _, hj =>
      obtain rfl := Option.some.inj hj
      have hk : name.kind = .ident := hf.proper.1
      have hn : name.children = [] := by
        obtain ⟨_, _, _, shape⟩ := name
        cases shape <;> first | rfl | cases hk
      rw [hlead.eq_of_children hn, hk] at hm
      cases hm
    | 1, some inside, hj =>
      obtain rfl := Option.some.inj hj
      exact ⟨inside, rest, rfl, rfl, hlead⟩
    | 1, none, hj => simp [Node.children, Node.shape, Shape.children] at hj
    | j + 2, none, hj => simp [Node.children, Node.shape, Shape.children] at hj
    | j + 2, some inside, hj => simp [Node.children, Node.shape, Shape.children] at hj

lemma opens_labeled {span : Option Span} {layout : Layout} {name inside : Node} {m q : Nat}
    {gap : List Mark} (hkind : block.kind = .block) (hl : layout.Sound)
    (hn : Labels src extra name a m) (hr : Reach src m gap q) (hg : ∀ m ∈ gap, m.isGap = true)
    (hk : inside.kind.isPlain = true ∨ inside.kind = .labeled)
    (ih : Opens src extra block (.line inside) q b) :
    Opens src extra block (.line (.mk span layout none (.labeled name (some inside)))) a b := by
  rintro address ⟨hf, hlead⟩
  obtain ⟨_, rest, hin, rfl, hlead⟩ := hlead.of_label hkind hf
  obtain rfl := Option.some.inj hin
  have hle := hn.le
  have hle' := hr.le
  obtain ⟨p, q', hp, hpq, hq, hb, hswap⟩ :=
    ih rest ⟨hf.child (by simp [Node.children, Node.shape, Shape.children]), hlead⟩
  refine ⟨p, q', by omega, hpq, hq, hb, fun f extra' hf hx hlaid => ?_⟩
  have hk' := hk
  rw [← (Node.alike_modifyAt hf rest inside).kind] at hk'
  exact .labeled hl (hn.congr fun o _ _ => hx o (.inl (by omega))) hr hg
    (hswap f extra' hf hx hlaid) hk'

theorem opens_of_laid {part : Part} (h : Laid src extra part a b) (hkind : block.kind = .block) :
    Opens src extra block part a b := by
  induction h with
  | woven hk _ ih => exact opens_woven hkind hk ih
  | block hstop ho hc hs hv he he' hone hl h ih =>
    exact opens_block hkind hstop ho hc hs hv he he' hone hl h ih
  | done =>
    rintro (_ | ⟨j, rest⟩) hh
    · exact hh.elim
    · exact absurd hh.2.1 (by simp)
  | text hs hr he _ ih => exact opens_text hs hr he ih
  | child hi hn h ihn ih => exact opens_child hi hn h ihn ih
  | ended =>
    rintro (_ | ⟨j, rest⟩) hh
    · exact hh.elim
    · obtain ⟨c, hc, _⟩ := hh
      simp at hc
  | comment hl ht hc _ ih => exact opens_comment hkind hl ht hc ih
  | stmt hr hg hend hn hm hs hlast hfresh h ihn ih =>
    exact opens_stmt hr hg hend hn hm hs hlast hfresh h ihn ih
  | plain hk hl _ ih => exact opens_plain hk hl ih
  | clause hl hk hs hh ht hm hb ihh ihb => exact opens_clause hkind hl hk hs hh ht hm hb ihh ihb
  | label =>
    rintro address ⟨hf, hlead⟩
    obtain ⟨_, _, hin, _⟩ := hlead.of_label hkind hf
    cases hin
  | labeled hl hn hr hg _ hk ih => exact opens_labeled hkind hl hn hr hg hk ih

def put (o : Nat) (i : Insert) (extra : Nat → List Lexeme) : Nat → List Lexeme :=
  Function.update extra o (i.lexemes ++ extra o)

lemma put_of_ne {o p : Nat} {i : Insert} {extra : Nat → List Lexeme} (h : p ≠ o) :
    put o i extra p = extra p :=
  Function.update_of_ne h _ _

structure Brace (src : List Char) (o : Nat) : Prop where
  sync : Sync src o
  hop : Hop src o [.lexeme o .openCurly] (o + 1)

namespace Laid

lemma opening (h : Laid src extra (.node block) a b) (hkind : block.kind = .block) :
    block.span.map Span.start = some a ∧ Brace src a := by
  cases h with
  | woven hk => exact absurd hkind hk
  | block _ ho _ hsync => exact ⟨rfl, hsync, ho⟩

lemma prepend {i : Insert} (h : Laid src extra (.node block) a b) (hkind : block.kind = .block)
    (hv : i.Valid) : a < b ∧ Laid src (put a i extra) (.node (.prepend i.node block)) a b := by
  cases h with
  | woven hk => exact absurd hkind hk
  | @block span layout pieces ins own oneLine lead b hstop ho hc hsync hvs he he' hone hl h =>
    have hle := h.le
    have hvs' : ∀ j ∈ i :: ins, j.Valid := List.forall_mem_cons.2 ⟨hv, hvs⟩
    have he₁ : put span.start i extra span.start = (i :: ins).flatMap Insert.lexemes := by
      rw [ParallelTests.put, Function.update_self, he, List.flatMap_cons]
    have he₂ : put span.start i extra b = [] := by
      rw [put_of_ne (by omega), he']
    have hlaid : Laid src (put span.start i extra) (.node (.mk (some span) layout pieces (.block
        ((i :: ins).map Insert.node ++ own) false lead))) span.start (b + 1) :=
      .block hstop ho hc hsync hvs' he₁ he₂ (by simp) hl (h.congr fun o h₁ _ => put_of_ne (by omega))
    exact ⟨by omega, hlaid⟩

theorem put {n : Node} {address : Address} {i : Insert} (h : Laid src extra (.node n) a b)
    (hf : Formed n) (hl : Leads n address block) (hkind : block.kind = .block) (hv : i.Valid) :
    ∃ o, block.span.map Span.start = some o ∧ Brace src o ∧ a ≤ o ∧ o < b ∧
      Laid src (put o i extra) (.node (n.modifyAt (.prepend i.node) address)) a b := by
  obtain ⟨p, q, hp, hpq, hq, hb, hswap⟩ := opens_of_laid h hkind address ⟨hf, hl⟩
  obtain ⟨hlt, hlaid⟩ := hb.prepend hkind hv
  obtain ⟨hspan, hbrace⟩ := hb.opening hkind
  refine ⟨p, hspan, hbrace, hp, by omega, ?_⟩
  exact hswap _ _ (Node.alike_prepend i.node) (fun o ho => put_of_ne (by omega)) hlaid

lemma opening_lt {n outer : Node} {address rest : Address} {j o o' : Nat}
    (h : Laid src extra (.node n) a b) (hf : Formed n) (hl : Leads n address outer)
    (hout : outer.kind = .block) (hl' : Leads outer (j :: rest) block)
    (hkind : block.kind = .block) (ho : outer.span.map Span.start = some o)
    (ho' : block.span.map Span.start = some o') : o < o' := by
  obtain ⟨p, q, -, -, -, hb, -⟩ := opens_of_laid h hout address ⟨hf, hl⟩
  have hf' := hf.at? hl.at?
  obtain rfl := Option.some.inj ((hb.opening hout).1.symm.trans ho)
  cases hb with
  | woven hk => exact absurd hout hk
  | block _ _ _ _ _ _ _ _ _ hown =>
    obtain ⟨k, -, hosts⟩ := hosts_own hkind hf' hl'
    obtain ⟨p', q', hp', -, -, hb', -⟩ := opens_of_laid hown hkind (k :: rest) hosts
    obtain rfl := Option.some.inj ((hb'.opening hkind).1.symm.trans ho')
    omega

end Laid

end ParallelTests
