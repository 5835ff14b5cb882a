import Mathlib.Data.List.Induction
import ParallelTests.Proofs.Parse.Attached

/-!
The text of a node is a splice of its source. With the source in place of every node it shows, it is
what stands at the node's span; only the header of a clause goes on behind its span, with comments.
-/

namespace ParallelTests

open Scan

variable {src : Source} {ns : List Node} {n : Node} {ps : List Piece} {a b : Nat}

namespace Piece

def shown? (ns : List Node) (p : Piece) : Option Span :=
  p.child?.bind fun i => ns[i]?.bind Node.span

def original (src : Source) (ns : List Node) : Piece → String
  | .text t => t
  | p => (p.shown? ns).elim "" fun span => src.slice span.start span.stop

lemma shown?_child {i : Nat} {span : Span} (hi : ns[i]? = some n) (hs : n.span = some span) :
    (child i).shown? ns = some span := by
  simp [shown?, child?, hi, hs]

end Piece

/-- Pieces that are a splice of the text at a span. Each is a text or shows a node right below; these
nodes stand inside the span, one behind the other, and with the source in their place the pieces are
the source at the span. -/
structure Splices (src : Source) (ns : List Node) (ps : List Piece) (span : Span) : Prop where
  child : ∀ p ∈ ps, (∃ text, p = .text text) ∨
    ∃ i m place, p = .child i ∧ ns[i]? = some m ∧ m.span = some place
  inside : ∀ place ∈ ps.filterMap (Piece.shown? ns),
    span.start ≤ place.start ∧ place.start < place.stop ∧ place.stop ≤ span.stop
  ascending : (ps.filterMap (Piece.shown? ns)).Pairwise fun x y => x.stop ≤ y.start
  text_eq : String.join (ps.map (Piece.original src ns)) = src.slice span.start span.stop

namespace Weaves

lemma le (h : Weaves src.chars ns a ps b) : a ≤ b := by
  induction h with
  | nil => exact Nat.le_refl _
  | text h _ ih => exact h.trans ih
  | child _ _ hlt _ ih => exact hlt.le.trans ih

lemma shows (h : Weaves src.chars ns a ps b) : ∀ p ∈ ps, (∃ text, p = .text text) ∨
    ∃ i m place, p = .child i ∧ ns[i]? = some m ∧ m.span = some place := by
  induction h with
  | nil => simp
  | text _ _ ih => exact List.forall_mem_cons.2 ⟨.inl ⟨_, rfl⟩, ih⟩
  | child hi hs _ _ ih => exact List.forall_mem_cons.2 ⟨.inr ⟨_, _, _, rfl, hi, hs⟩, ih⟩

lemma inside (h : Weaves src.chars ns a ps b) : ∀ place ∈ ps.filterMap (Piece.shown? ns),
    a ≤ place.start ∧ place.start < place.stop ∧ place.stop ≤ b := by
  induction h with
  | nil => simp
  | text h _ ih =>
    rw [List.filterMap_cons_none rfl]
    exact fun x hx => (ih x hx).imp_left h.trans
  | child hi hs hlt hps ih =>
    rw [List.filterMap_cons_some (Piece.shown?_child hi hs)]
    refine List.forall_mem_cons.2 ⟨⟨Nat.le_refl _, hlt, hps.le⟩, fun x hx => ?_⟩
    exact (ih x hx).imp_left hlt.le.trans

lemma ascending (h : Weaves src.chars ns a ps b) :
    (ps.filterMap (Piece.shown? ns)).Pairwise fun x y => x.stop ≤ y.start := by
  induction h with
  | nil => exact .nil
  | text _ _ ih =>
    rw [List.filterMap_cons_none rfl]
    exact ih
  | child hi hs _ hps ih =>
    rw [List.filterMap_cons_some (Piece.shown?_child hi hs)]
    exact .cons (fun x hx => (hps.inside x hx).1) ih

lemma text_eq (h : Weaves src.chars ns a ps b) :
    String.join (ps.map (Piece.original src ns)) = src.slice a b := by
  have slice_append {a m b : Nat} (h : a ≤ m) (h' : m ≤ b) :
      src.slice a m ++ src.slice m b = src.slice a b :=
    String.ofList_append.symm.trans (congrArg String.ofList (cut_append h h'))
  induction h with
  | nil => exact congrArg String.ofList cut_self.symm
  | text h hps ih =>
    rw [List.map_cons, String.join_cons, ih, Piece.original]
    exact slice_append h hps.le
  | child hi hs hlt hps ih =>
    rw [List.map_cons, String.join_cons, ih, Piece.original, Piece.shown?_child hi hs]
    · exact slice_append hlt.le hps.le
    · rintro _ ⟨⟩

lemma splices {span : Span} (h : Weaves src.chars ns span.start ps span.stop) :
    Splices src ns ps span :=
  ⟨h.shows, h.inside, h.ascending, h.text_eq⟩

end Weaves

def Node.IsHeaderIn (file : Node) (address : Address) : Prop :=
  ∃ above clause, address = above ++ [0] ∧ file.at? above = some clause ∧ clause.kind = .caseClause

/-- The header of a clause goes on behind its colon: a splice of the text up to there, then the
comments that start behind the colon, the first of them on its line. -/
def Node.RunsOn (s : TokenStream) (n : Node) (ps : List Piece) : Prop :=
  ∃ t colon leads text qs, colon.lexeme = .op .colon ∧ n.span = some (.ofTokens t colon) ∧
    Splices s.source n.children qs (.ofTokens t colon) ∧
    (∀ c ∈ leads, c ∈ s.comments ∧ colon.stop ≤ c.start) ∧ Attach.Joins colon.line leads ∧
    Attach.texts none leads = some text ∧ ps = qs ++ [.text (" " ++ text)]

lemma Node.at?_append_singleton {file : Node} {above : Address} {i : Nat} :
    file.at? (above ++ [i]) = some n ↔ ∃ m, file.at? above = some m ∧ m.children[i]? = some n := by
  simp [Node.at?_append, Option.bind_eq_some_iff]

lemma Woven.at? {cs : List Char} {file : Node} {address : Address} (h : Woven cs file)
    (hn : file.at? address = some n) :
    Woven cs n ∨ file.IsHeaderIn address ∧ ∀ m ∈ n.children, Woven cs m := by
  -- the last step of the address decides whether the node is a header
  induction address using List.reverseRecOn generalizing n with
  | nil => exact .inl (Option.some.inj hn ▸ h)
  | append_singleton above i ih =>
    obtain ⟨m, hm, hi⟩ := Node.at?_append_singleton.1 hn
    obtain hw | ⟨-, hbelow⟩ := ih hm
    · cases hw with
      | mk _ _ _ hc => exact .inl (hc _ (List.mem_of_getElem? hi))
      | clause hs _ _ hheader hbody =>
        rw [Node.children, hs, Shape.children] at hi
        cases i with
        | zero =>
          obtain rfl := Option.some.inj hi
          exact .inr ⟨⟨above, m, rfl, hm, by rw [Node.kind, hs]; rfl⟩, hheader⟩
        | succ i => exact .inl (hbody _ (List.mem_of_getElem? hi))
    · exact .inl (hbelow _ (List.mem_of_getElem? hi))

lemma Woven.spliced (h : Woven src.chars n) (hp : n.pieces = some ps) :
    ∃ span, n.span = some span ∧ Splices src n.children ps span := by
  obtain ⟨span, hs, hw⟩ := h.isWoven ps hp
  exact ⟨span, hs, hw.splices⟩

lemma Parted.header {s : TokenStream} {file : Node} {address : Address} (h : Parted s file)
    (hh : file.IsHeaderIn address) (hn : file.at? address = some n) (hp : n.pieces = some ps) :
    (∃ span, n.span = some span ∧ Splices s.source n.children ps span) ∨ n.RunsOn s ps := by
  obtain ⟨above, clause, rfl, hclause, hk⟩ := hh
  obtain ⟨_, hc, hi⟩ := Node.at?_append_singleton.1 hn
  obtain rfl := Option.some.inj (hclause.symm.trans hc)
  cases Node.of_at? (fun _ h => h.children) h hclause with
  | mk _ _ hheader _ =>
    obtain ⟨t, colon, leads, body, header, hspan, hcolon, hw, hleads, hjoins, hs⟩ := hheader hk
    rw [Node.children, hs] at hi
    obtain rfl := Option.some.inj hi
    -- without comments the clause keeps the header as it was read
    cases htext : Attach.texts none leads with
    | none =>
      rw [htext] at hp
      exact .inl (hw.spliced hp)
    | some text =>
      rw [htext] at hp
      obtain ⟨qs, hqs, rfl⟩ := Option.map_eq_some_iff.1 hp
      obtain ⟨_, ⟨⟩, hsplice⟩ := hw.spliced hqs
      rw [hspan] at hsplice
      exact .inr ⟨t, colon, leads, text, qs, hcolon, congrArg some hspan, hsplice, hleads, hjoins,
        htext, rfl⟩

/-- In the tree of a source, the text of every node is a splice of the source at the node's span, and
the nodes it shows are among those that a walk visits next. Only the header of a clause may go on
behind its span, with the comments that were moved to it. The name of a function, which no walk
visits, is a splice as well. -/
theorem Source.splices_of_parse {file : Node} (h : src.parse = .ok file) :
    ∃ s, TokenStream.ofSource src = .ok s ∧
      (∀ address n ps, file.at? address = some n → n.pieces = some ps →
        (∃ span, n.span = some span ∧ Splices src n.children ps span) ∨
          file.IsHeaderIn address ∧ n.RunsOn s ps) ∧
      ∀ decl ∈ file.children, ∀ name ∈ decl.shape.functionName?, ∀ ps, name.pieces = some ps →
        ∃ span, name.span = some span ∧ Splices src name.children ps span := by
  obtain ⟨s, hs, h⟩ := Except.bind_eq_ok_iff.1 (Except.mapError_eq_ok_iff.1 h)
  obtain ⟨p, hp, h⟩ := Except.bind_eq_ok_iff.1 h
  obtain rfl := Except.pure_eq_ok_iff.1 h
  obtain ⟨_, _, rfl, _⟩ := TokenStream.of_ofSource hs
  obtain ⟨hscan, line, hr⟩ := TokenStream.scanned hs
  have hfile := Parser.stream_ok hr hscan hp
  have hparted : Parted s p.node := (Parser.stream_parted hr (TokenStream.has_groups hs)).of_ok hp
  refine ⟨s, hs, fun address n ps hn hps => ?_, fun decl hd name hname ps hps => ?_⟩
  · obtain hw | ⟨hheader, -⟩ := hfile.woven.at? hn
    · exact .inl (hw.spliced hps)
    · exact (hparted.header hheader hn hps).imp_right fun hruns => ⟨hheader, hruns⟩
  · exact ((hfile.declared decl hd).name name hname).spliced hps

def Node.restored (src : Source) (n : Node) : Option String × Option String :=
  (n.pieces.map fun ps => String.join (ps.map (Piece.original src n.children)),
    n.span.map fun span => src.slice span.start span.stop)

def splicedSource : Source :=
  .ofString "a.go" "package p\nfunc f() \x7b\n\ty = g(a, func() \x7b h() \x7d...)\n\tswitch x \x7b\n\tcase 1: // one\n\t\x7d\n\x7d\n"

set_option maxRecDepth 100000 in
theorem Source.splices_of_parse_splicedSource :
    ∃ file s call header ps qs, splicedSource.parse = .ok file ∧
      TokenStream.ofSource splicedSource = .ok s ∧ file.at? [0, 1, 0, 1] = some call ∧
      call.pieces = some ps ∧
      (∃ span, call.span = some span ∧ Splices splicedSource call.children ps span) ∧
      file.at? [0, 1, 1, 0, 0, 0] = some header ∧ header.pieces = some qs ∧ header.RunsOn s qs := by
  have h : splicedSource.parse.toOption.any (fun file =>
      (file.at? [0, 1, 0, 1]).map (Node.restored splicedSource) =
          some (some "g(a, func() \x7b h() \x7d...)", some "g(a, func() \x7b h() \x7d...)") ∧
        (file.at? [0, 1, 1, 0, 0, 0]).map (Node.restored splicedSource) =
          some (some "case 1: // one", some "case 1:")) = true := by decide +kernel
  obtain ⟨file, hfile, h⟩ := (Option.any_eq_true _ _).1 h
  obtain ⟨hcall, hheader⟩ := of_decide_eq_true h
  obtain ⟨call, hcall, hrestored⟩ := Option.map_eq_some_iff.1 hcall
  obtain ⟨header, hheader, hrestored'⟩ := Option.map_eq_some_iff.1 hheader
  obtain ⟨ps, hps, -⟩ := Option.map_eq_some_iff.1 (congrArg Prod.fst hrestored)
  obtain ⟨qs, hqs, hjoin⟩ := Option.map_eq_some_iff.1 (congrArg Prod.fst hrestored')
  replace hfile := Except.toOption_eq_some.1 hfile
  obtain ⟨s, hs, hsplices, -⟩ := Source.splices_of_parse hfile
  refine ⟨file, s, call, header, ps, qs, hfile, hs, hcall, hps, ?_, hheader, hqs, ?_⟩
  · refine (hsplices _ call ps hcall hps).resolve_right fun ⟨⟨above, _, h, _⟩, _⟩ => ?_
    simpa using congrArg List.getLast? h
  · refine ((hsplices _ header qs hheader hqs).resolve_left fun ⟨span, hspan, h⟩ => ?_).2
    have hslice := congrArg Prod.snd hrestored'
    rw [Node.restored, hspan, Option.map_some] at hslice
    have := hjoin.symm.trans (h.text_eq.trans (Option.some.inj hslice))
    exact absurd this (by decide)

end ParallelTests
