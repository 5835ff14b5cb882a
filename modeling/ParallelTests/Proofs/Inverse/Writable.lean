import ParallelTests.Proofs.Inverse.Reading
import ParallelTests.Proofs.Scan.Spelled

/-!
Expressions without verbatim text: the lexemes that are printed for one, and that these are read as it.
-/

namespace ParallelTests

open Scan Printer TokenGroup ParallelTests.Parser

inductive Writable : Node → Prop
  | ident {span : Option Span} {layout : Layout} {name : String} (h : IsIdentifier name) :
      Writable (.mk span layout none (.ident name))
  | literal {span : Option Span} {layout : Layout} {text : String} {l : Lexeme} (h : IsLiteral text l) :
      Writable (.mk span layout none (.basicLit text))
  | star {span : Option Span} {layout : Layout} {x : Node} (h : Writable x) :
      Writable (.mk span layout none (.star x))
  | selector {span span' : Option Span} {layout layout' : Layout} {x : Node} {name : String}
      (h : Writable x) (hk : x.kind ≠ .star) (hn : IsIdentifier name) :
      Writable (.mk span layout none (.selector x (.mk span' layout' none (.ident name))))
  | call {span : Option Span} {layout : Layout} {callee : Node} {args : List Node} {ellipsis : Bool}
      (h : Writable callee) (hk : callee.kind ≠ .star) (ha : ∀ a ∈ args, Writable a)
      (he : ellipsis = true → args ≠ []) : Writable (.mk span layout none (.call callee args ellipsis))

def Writes (print : Page → Printer.Result Page) (w : List Char) : Prop :=
  ∀ page, ∃ page', print page = .ok page' ∧ Wrote page page' w

namespace Writes

variable {f g : Page → Printer.Result Page} {v w : List Char}

lemma nothing : Writes .ok [] :=
  fun page => ⟨page, rfl, wrote_refl⟩

lemma write (text : String) : Writes (fun page => .ok (page.write text)) text.toList :=
  fun page => ⟨_, rfl, wrote_write page text⟩

lemma bind (hf : Writes f w) (hg : Writes g v) : Writes (fun page => f page >>= g) (w ++ v) := by
  intro page
  obtain ⟨page₁, h₁, hw₁⟩ := hf page
  obtain ⟨page₂, h₂, hw₂⟩ := hg page₁
  exact ⟨page₂, Except.bind_eq_ok_iff.2 ⟨page₁, h₁, h₂⟩, hw₁.trans hw₂⟩

end Writes

structure Spells (e : Node) (w : List Char) (ls : List Lexeme) : Prop where
  emits : Writes (emit none · e) w
  opens : ∃ c x, w = c :: x ∧ c ≠ '='
  closes : ∃ init l, ls = init ++ [l] ∧ l.endsLine = true
  spelled : ∀ rest ss, EndsWord rest → Spelled rest ss → Spelled (w ++ rest) (ls.map .lexeme ++ ss)
  groups : ∀ ts : List Token, ts.map (·.lexeme) = ls → ∃ st, Grouped ts st.toList ∧ Reading e st

structure SpellsRow (es : List Node) (w : List Char) (ls : List Lexeme) : Prop where
  emits : Writes (emitAll none ", " · es) w
  closes : es ≠ [] → ∃ init l, ls = init ++ [l] ∧ l.endsLine = true
  spelled : ∀ rest ss, EndsWord rest → Spelled rest ss → Spelled (w ++ rest) (ls.map .lexeme ++ ss)
  groups : ∀ ts : List Token, ts.map (·.lexeme) = ls → ∃ gs, Grouped ts gs ∧ Row es gs

variable {span span' : Option Span} {layout layout' : Layout} {e x callee : Node} {es args : List Node}
  {name text : String} {l : Lexeme} {v w : List Char} {ls ms : List Lexeme} {ellipsis : Bool}

lemma SpellsRow.nil : SpellsRow [] [] [] where
  emits := by
    simp only [emitAll]
    exact Writes.nothing
  closes h := absurd rfl h
  spelled rest ss _ h := h
  groups ts hts := by
    obtain rfl := List.map_eq_nil_iff.1 hts
    exact ⟨[], .nil, .nil⟩

lemma Spells.row (h : Spells e w ls) : SpellsRow [e] w ls where
  emits := by
    simp only [emitAll]
    exact h.emits
  closes _ := h.closes
  spelled := h.spelled
  groups ts hts := by
    obtain ⟨st, hg, hr⟩ := h.groups ts hts
    exact ⟨_, hg, .single hr⟩

lemma SpellsRow.cons (h : Spells e w ls) (hne : es ≠ []) (hr : SpellsRow es v ms) :
    SpellsRow (e :: es) (w ++ ',' :: ' ' :: v) (ls ++ .op .comma :: ms) where
  emits := by
    obtain ⟨e', es, rfl⟩ := List.exists_cons_of_ne_nil hne
    simp only [emitAll]
    exact h.emits.bind ((Writes.write ", ").bind hr.emits)
  closes _ := by
    obtain ⟨init, l, rfl, hl⟩ := hr.closes hne
    exact ⟨ls ++ .op .comma :: init, l, by simp, hl⟩
  spelled rest ss hrest hs := by
    have hcomma : Spelled (',' :: ' ' :: (v ++ rest)) (.lexeme (.op .comma) :: (ms.map .lexeme ++ ss)) :=
      .mark rfl (.blank rfl (hr.spelled rest ss hrest hs))
    simpa using h.spelled _ _ (endsWord_cons rfl) hcomma
  groups ts hts := by
    obtain ⟨xs, _, rfl, hxs, hbehind⟩ := List.map_eq_append_iff.1 hts
    obtain ⟨comma, ys, rfl, hcomma, hys⟩ := List.map_eq_cons_iff.1 hbehind
    obtain ⟨st, hst, hread⟩ := h.groups xs hxs
    obtain ⟨gs, hgs, hrow⟩ := hr.groups ys hys
    have hleaf : Grouped [comma] [.leaf comma] := .leaf (by simp [hcomma]) (by simp [hcomma])
    exact ⟨_, hst.append (hleaf.append hgs), .cons hread hcomma hne hrow⟩

lemma exists_spellsRow (h : ∀ e ∈ es, ∃ w ls, Spells e w ls) : ∃ w ls, SpellsRow es w ls := by
  induction es with
  | nil => exact ⟨_, _, .nil⟩
  | cons e es ih =>
    obtain ⟨⟨w, ls, he⟩, hes⟩ := List.forall_mem_cons.1 h
    rcases eq_or_ne es [] with rfl | hne
    · exact ⟨w, ls, he.row⟩
    · obtain ⟨v, ms, hrow⟩ := ih hes
      exact ⟨_, _, .cons he hne hrow⟩

namespace Spells

lemma ident (h : IsIdentifier name) :
    Spells (.mk span layout none (.ident name)) name.toList [.ident name] where
  emits := by
    simp only [emit]
    exact Writes.write name
  opens := by
    obtain ⟨⟨c, cs, hname, hc, -⟩, -⟩ := h
    exact ⟨c, cs, hname, ne_of_isWordStart hc (by decide)⟩
  closes := ⟨[], _, rfl, rfl⟩
  spelled rest ss hrest hs := .identifier h hrest hs
  groups ts hts := by
    obtain ⟨t, rfl, ht⟩ := List.map_eq_singleton_iff.1 hts
    exact ⟨⟨.leaf t, []⟩, .leaf (by simp [ht]) (by simp [ht]), reading_ident ht rfl⟩

lemma literal (h : IsLiteral text l) :
    Spells (.mk span layout none (.basicLit text)) text.toList [l] where
  emits := by
    simp only [emit]
    exact Writes.write text
  opens := by
    obtain ⟨hl, c, x, htext, hf⟩ := h
    refine ⟨c, x, htext, ?_⟩
    rcases quote_of_literal hl hf with rfl | rfl | rfl <;> decide
  closes := ⟨[], l, rfl, by rcases h.1 with rfl | rfl <;> rfl⟩
  spelled rest ss _ hs := .literal h hs
  groups ts hts := by
    obtain ⟨t, rfl, ht⟩ := List.map_eq_singleton_iff.1 hts
    refine ⟨⟨.leaf t, []⟩, ?_, reading_literal (ht ▸ h.1) rfl⟩
    rcases h.1 with rfl | rfl <;> exact .leaf (by simp [ht]) (by simp [ht])

lemma star (h : Spells x w ls) :
    Spells (.mk span layout none (.star x)) ('*' :: w) (.op (.arith .mul) :: ls) where
  emits := by
    simp only [emit]
    exact (Writes.write "*").bind h.emits
  opens := ⟨'*', w, rfl, by decide⟩
  closes := by
    obtain ⟨init, l, rfl, hl⟩ := h.closes
    exact ⟨_ :: init, l, rfl, hl⟩
  spelled rest ss hrest hs := by
    refine .star ?_ (h.spelled rest ss hrest hs)
    obtain ⟨c, y, rfl, hc⟩ := h.opens
    simpa using hc
  groups ts hts := by
    obtain ⟨t, xs, rfl, ht, hxs⟩ := List.map_eq_cons_iff.1 hts
    obtain ⟨st, hst, hread⟩ := h.groups xs hxs
    have hleaf : Grouped [t] [.leaf t] := .leaf (by simp [ht]) (by simp [ht])
    exact ⟨⟨.leaf t, st.toList⟩, hleaf.append hst, hread.star ht rfl⟩

lemma selector (h : Spells x w ls) (hk : x.kind ≠ .star) (hn : IsIdentifier name) :
    Spells (.mk span layout none (.selector x (.mk span' layout' none (.ident name))))
      (w ++ '.' :: name.toList) (ls ++ [.op .period, .ident name]) where
  emits := by
    simp only [emit]
    exact h.emits.bind ((Writes.write ".").bind (Writes.write name))
  opens := by
    obtain ⟨c, y, rfl, hc⟩ := h.opens
    exact ⟨c, _, rfl, hc⟩
  closes := ⟨ls ++ [.op .period], .ident name, by simp, rfl⟩
  spelled rest ss hrest hs := by
    have hname := Spelled.period hn (.identifier hn hrest hs)
    simpa using h.spelled _ _ (endsWord_cons rfl) hname
  groups ts hts := by
    obtain ⟨xs, _, rfl, hxs, hbehind⟩ := List.map_eq_append_iff.1 hts
    obtain ⟨dot, _, rfl, hd, hname⟩ := List.map_eq_cons_iff.1 hbehind
    obtain ⟨t, rfl, ht⟩ := List.map_eq_singleton_iff.1 hname
    obtain ⟨st, hst, hread⟩ := h.groups xs hxs
    have hdot : Grouped [dot] [.leaf dot] := .leaf (by simp [hd]) (by simp [hd])
    have hsel : Grouped [t] [.leaf t] := .leaf (by simp [ht]) (by simp [ht])
    have hgs : Grouped (xs ++ [dot, t]) (⟨st.head, st.tail ++ [.leaf dot, .leaf t]⟩ : Stretch).toList :=
      hst.append (hdot.append hsel)
    exact ⟨_, hgs, hread.selector hk hd ht rfl rfl⟩

def dots (ellipsis : Bool) : List Lexeme := if ellipsis then [.op .ellipsis] else []

lemma spelled_close {ss : List Sign} {rest : List Char} (h : Spelled rest ss) :
    Spelled ((if ellipsis then "...)" else ")").toList ++ rest)
      ((dots ellipsis ++ [Lexeme.op (.closing .round)]).map .lexeme ++ ss) := by
  have hclose : Spelled (')' :: rest) (.lexeme (.op (.closing .round)) :: ss) := .mark rfl h
  cases ellipsis with
  | false => exact hclose
  | true => exact .ellipsis hclose

lemma exists_dots {ts : List Token} (hts : ts.map (·.lexeme) = dots ellipsis)
    (he : ellipsis = true → args ≠ []) : ∃ gs, Grouped ts gs ∧ ellipsis = !gs.isEmpty ∧
      (gs = [] ∨ args ≠ [] ∧ ∃ t : Token, t.lexeme = .op .ellipsis ∧ gs = [.leaf t]) := by
  cases ellipsis with
  | false =>
    obtain rfl := List.map_eq_nil_iff.1 hts
    exact ⟨[], .nil, rfl, .inl rfl⟩
  | true =>
    obtain ⟨t, rfl, ht⟩ := List.map_eq_singleton_iff.1 hts
    exact ⟨[.leaf t], .leaf (by simp [ht]) (by simp [ht]), rfl, .inr ⟨he rfl, t, ht, rfl⟩⟩

lemma call (h : Spells callee w ls) (hk : callee.kind ≠ .star) (hr : SpellsRow args v ms)
    (he : ellipsis = true → args ≠ []) :
    Spells (.mk span layout none (.call callee args ellipsis))
      (w ++ '(' :: (v ++ (if ellipsis then "...)" else ")").toList))
      (ls ++ .op (.opening .round) :: (ms ++ (dots ellipsis ++ [.op (.closing .round)]))) where
  emits := by
    simp only [emit]
    exact h.emits.bind ((Writes.write "(").bind (hr.emits.bind (Writes.write _)))
  opens := by
    obtain ⟨c, y, rfl, hc⟩ := h.opens
    exact ⟨c, _, rfl, hc⟩
  closes := ⟨ls ++ .op (.opening .round) :: (ms ++ dots ellipsis), .op (.closing .round), by simp, rfl⟩
  spelled rest ss hrest hs := by
    have hends : EndsWord ((if ellipsis then "...)" else ")").toList ++ rest) := by
      cases ellipsis <;> exact endsWord_cons rfl
    have hargs := hr.spelled _ _ hends (spelled_close hs)
    have hopen : Spelled ('(' :: _) (.lexeme (.op (.opening .round)) :: _) := .mark rfl hargs
    simpa using h.spelled _ _ (endsWord_cons rfl) hopen
  groups ts hts := by
    obtain ⟨xs, _, rfl, hxs, hbehind⟩ := List.map_eq_append_iff.1 hts
    obtain ⟨o, _, rfl, ho, hinside⟩ := List.map_eq_cons_iff.1 hbehind
    obtain ⟨ys, _, rfl, hys, hend⟩ := List.map_eq_append_iff.1 hinside
    obtain ⟨zs, _, rfl, hzs, hclose⟩ := List.map_eq_append_iff.1 hend
    obtain ⟨c, rfl, hc⟩ := List.map_eq_singleton_iff.1 hclose
    obtain ⟨st, hst, hread⟩ := h.groups xs hxs
    obtain ⟨gs, hgs, hrow⟩ := hr.groups ys hys
    obtain ⟨ds, hds, rfl, hdots⟩ := exists_dots hzs he
    have hpair := (hgs.append hds).pair ho hc
    rw [List.append_assoc] at hpair
    have hcall : Grouped (xs ++ o :: (ys ++ (zs ++ [c])))
        (⟨st.head, st.tail ++ [.pair .round o (gs ++ ds) c]⟩ : Stretch).toList := hst.append hpair
    exact ⟨_, hcall, hread.call hk hrow hdots rfl⟩

end Spells

lemma Writable.exists_spells (h : Writable e) : ∃ w ls, Spells e w ls := by
  induction h with
  | ident h => exact ⟨_, _, .ident h⟩
  | literal h => exact ⟨_, _, .literal h⟩
  | star _ ih =>
    obtain ⟨w, ls, hx⟩ := ih
    exact ⟨_, _, hx.star⟩
  | selector _ hk hn ih =>
    obtain ⟨w, ls, hx⟩ := ih
    exact ⟨_, _, hx.selector hk hn⟩
  | call _ hk _ he ih iha =>
    obtain ⟨w, ls, hx⟩ := ih
    obtain ⟨v, ms, hargs⟩ := exists_spellsRow iha
    exact ⟨_, _, hx.call hk hargs he⟩

end ParallelTests
