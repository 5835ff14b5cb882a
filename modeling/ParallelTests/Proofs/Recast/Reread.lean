import ParallelTests.Proofs.Edit.Walk
import ParallelTests.Proofs.Print.Tokens
import ParallelTests.Proofs.Recast.File

/-!
A file that is printed and read again has the shape it had, unless a semicolon is written out between
its statements.
-/

namespace ParallelTests

open Scan Printer

lemma Scan.Strung.exists_of_hop {src : List Char} {a x y : Nat} {pending : Bool} {ns : List Mark}
    {ts : List Token} {l : Lexeme} (h : Strung src a pending ts) (hx : Reach src a ns x)
    (hop : Hop src x [.lexeme x l] y) : ∃ t ∈ ts, t.start = x ∧ t.lexeme = l := by
  induction h generalizing ns with
  | nil hr hq =>
    have hmem := hr.mem_of_hop hx hop (hop.lt.trans_le hop.le_length)
    exact absurd (hq _ hmem).1 (by simp [Mark.isQuiet])
  | @written _ _ ms t _ hr hq hop' _ ih =>
    rcases Nat.lt_trichotomy x t.start with hlt | rfl | hgt
    · exact absurd (hq _ (hr.mem_of_hop hx hop hlt)).1 (by simp [Mark.isQuiet])
    · obtain ⟨he, -⟩ := hop'.unique hop
      exact ⟨t, by simp, rfl, by simpa using he⟩
    · obtain ⟨rest, -, hrest⟩ := hr.split hx hgt.le
      obtain ⟨rest', -, hpast⟩ := hrest.past hop' hgt
      obtain ⟨u, hu, hut⟩ := ih hpast
      exact ⟨u, List.mem_cons_of_mem _ hu, hut⟩
  | @automatic _ ms t _ hr hq _ _ _ _ ih =>
    rcases Nat.lt_or_ge x t.start with hlt | hge
    · exact absurd (hq _ (hr.mem_of_hop hx hop hlt)).1 (by simp [Mark.isQuiet])
    · obtain ⟨rest, -, hrest⟩ := hr.split hx hge
      obtain ⟨u, hu, hut⟩ := ih hrest
      exact ⟨u, List.mem_cons_of_mem _ hu, hut⟩

/-- No semicolon that is written out separates or ends the statements of a block or a clause of a file:
each that stands in one is inside a statement there, or in the header of a clause. -/
def Source.Unseparated (src : Source) (file : Node) : Prop :=
  ∀ s, TokenStream.ofSource src = .ok s → ∀ t ∈ s.tokens, t.lexeme = .semicolon true →
    ∀ address n, file.at? address = some n → n.kind = .block ∨ n.kind = .caseClause →
      ∀ span ∈ n.span, span.start ≤ t.start → t.start < span.stop →
        ∃ c ∈ n.children, ∃ inner ∈ c.span, inner.start ≤ t.start ∧ t.start < inner.stop

variable {src : Source} {s : TokenStream} {lost : Nat → Prop} {file : Node} {out : String}

lemma TokenStream.genuine (h : TokenStream.ofSource src = .ok s) : s.Genuine :=
  ⟨by rw [source_eq h]; exact h, (scanned h).2⟩

lemma Source.unseparated_iff_preorder (hs : TokenStream.ofSource src = .ok s) (file : Node) :
    (∀ t ∈ s.tokens, t.lexeme = .semicolon true → ∀ p ∈ file.preorder [],
      p.2.kind = .block ∨ p.2.kind = .caseClause → ∀ span ∈ p.2.span, span.start ≤ t.start →
        t.start < span.stop → ∃ c ∈ p.2.children, ∃ inner ∈ c.span,
          inner.start ≤ t.start ∧ t.start < inner.stop) ↔ src.Unseparated file := by
  constructor
  · intro h s' hs' t ht hl address n hn
    obtain rfl := Except.ok.inj (hs.symm.trans hs')
    exact h t ht hl (address, n) (Node.mem_preorder.2 ⟨address, rfl, hn⟩)
  · rintro h t ht hl ⟨address, n⟩ hp
    obtain ⟨rel, -, hn⟩ := Node.mem_preorder.1 hp
    exact h s hs t ht hl rel n hn

lemma Source.Unseparated.castable (h : src.Unseparated file) (hs : TokenStream.ofSource src = .ok s)
    (hd : ∀ x, file.Drops x → lost x) : file.Each (Node.Castable src.chars lost) := by
  refine castable_of_drops (.of_at? fun address n hn hk span hspan x y hx hx' hsync hop => ?_) hd
  obtain ⟨ns, hr⟩ := hsync
  obtain ⟨t, ht, rfl, hl⟩ := (TokenStream.strung hs).exists_of_hop hr hop
  exact h s hs t ht hl address n hn hk span hspan hx hx'

lemma recast_of_render {n : Node} (h : Casts src.chars lost n 0 src.size) (hr : n.render = .ok out) :
    ∃ q, Recast src.chars lost .start 0 out.toList q src.size := by
  unfold Node.render at hr
  split at hr
  · next page hpage =>
    obtain rfl := Except.ok.inj hr
    have htracks : Pace.Tracks src.chars .start 0 := ⟨by rintro ⟨⟩, [], .refl (Nat.zero_le _), rfl⟩
    have hready : Pace.Ready src.chars .start 0 := .even ⟨htracks, rfl, False.elim⟩
    obtain ⟨w, q, hw, hq, -⟩ := h none .empty page .start (by simp [Indents]) hready hpage
    obtain rfl : page.text.toList = w := by simpa [Wrote, Page.empty] using hw
    exact ⟨q, hq⟩
  · simp at hr

/-- Reading the printed text of a file gives the file back: the same nodes with the same names,
literals, operators and comments, nested in the same way. -/
theorem Source.sameShape_of_render (h : src.parse = .ok file) (hw : src.Unseparated file)
    (hr : file.render = .ok out) :
    ∃ file', (Source.ofString src.path out).parse = .ok file' ∧ SameShape file file' := by
  have hparse := Source.parse_eq_ok_iff.1 h
  have hfile := isFile_of_parse hparse
  obtain ⟨s, hs, hstream⟩ := Except.bind_eq_ok_iff.1 hparse
  obtain ⟨p, hp, hpure⟩ := Except.bind_eq_ok_iff.1 hstream
  obtain rfl := Except.pure_eq_ok_iff.1 hpure
  have hsource := TokenStream.source_eq hs
  obtain ⟨hscan, line, hremarks⟩ := TokenStream.scanned hs
  have hparted := (Parser.stream_parted hremarks (TokenStream.has_groups hs)).of_ok hp
  -- what the printer loses are the comments next to labels, and these the parser drops
  let lost : Nat → Prop := fun x => p.node.Drops x
  have hshown : p.node.isShown = true := hfile.lies.isShown
  have hnests := nests_of_parted hremarks hparted (hsource ▸ hfile.woven) hshown
  have hkeeps : p.node.Keeps lost := hnests.keeps fun _ _ _ _ _ hx => hx
  have hcasts : Casts src.chars lost p.node 0 src.size := by
    have heach := hw.castable hs fun x (hx : p.node.Drops x) => hx
    subst hsource
    exact casts_of_parted hs hremarks _ p.node (Nat.lt_succ_self _) hparted heach 0 _ hfile.lies
  obtain ⟨q, hrecast⟩ := recast_of_render hcasts hr
  obtain ⟨s', y, hs', htwins⟩ := hrecast.stream hs src.path
  have hpath : s'.source.path = s.source.path := by
    rw [TokenStream.source_eq hs', hsource]
    rfl
  have hlaw := (Parser.mirrorLaw_inductive (TokenStream.genuine hs) (TokenStream.genuine hs')).below
  obtain ⟨p', hp', hcopied⟩ := Parser.stream_mirrors hlaw hpath
    ⟨htwins, TokenStream.has_groups hs, TokenStream.has_groups hs'⟩ p hp
  refine ⟨p'.node, Source.parse_eq_ok_iff.2 ?_, hcopied hkeeps⟩
  exact Except.bind_eq_ok_iff.2 ⟨s', hs', Except.bind_eq_ok_iff.2 ⟨p', hp', rfl⟩⟩

def labelledSource : Source :=
  .ofString "a.go" "package p\nfunc f(n int) \x7b\n\tg(func() \x7b h() \x7d) // one\nL: // two\n\tfor i := 0; i < n; i++ \x7b\n\t\th()\n\t\x7d\n\x7d\n"

set_option maxRecDepth 100000 in
theorem Source.sameShape_of_render_labelledSource :
    ∃ file out file', labelledSource.parse = .ok file ∧ labelledSource.Unseparated file ∧
      file.render = .ok out ∧ (Source.ofString "a.go" out).parse = .ok file' ∧ SameShape file file' := by
  have h : labelledSource.parse.toOption.any (fun file => file.render.toOption.isSome &&
      (TokenStream.ofSource labelledSource).toOption.any fun s => ∀ t ∈ s.tokens,
        t.lexeme = .semicolon true → ∀ p ∈ file.preorder [],
          p.2.kind = .block ∨ p.2.kind = .caseClause → ∀ span ∈ p.2.span, span.start ≤ t.start →
            t.start < span.stop → ∃ c ∈ p.2.children, ∃ inner ∈ c.span,
              inner.start ≤ t.start ∧ t.start < inner.stop) = true := by decide +kernel
  obtain ⟨file, hfile, h⟩ := (Option.any_eq_true _ _).1 h
  obtain ⟨hrender, hstream⟩ := Bool.and_eq_true_iff.1 h
  obtain ⟨out, hout⟩ := Option.isSome_iff_exists.1 hrender
  obtain ⟨s, hs, hinside⟩ := (Option.any_eq_true _ _).1 hstream
  replace hfile := Except.toOption_eq_some.1 hfile
  replace hout := Except.toOption_eq_some.1 hout
  have hw : labelledSource.Unseparated file :=
    (Source.unseparated_iff_preorder (Except.toOption_eq_some.1 hs) file).1 (of_decide_eq_true hinside)
  obtain ⟨file', hagain, hsame⟩ := Source.sameShape_of_render hfile hw hout
  exact ⟨file, out, file', hfile, hw, hout, hagain, hsame⟩

end ParallelTests
