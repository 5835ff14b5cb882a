import ParallelTests.Proofs.Print.Tokens

namespace ParallelTests

open Scan

/-- The text printed for the tree of a source can be read again, and it has the lexemes of the source
in their order. Before a closing brace semicolons may come and go; elsewhere none is added, and none
is left out behind a lexeme after which the end of a line gives one. -/
theorem tokens_of_render {src : Source} {file : Node} {out : String} (path : String)
    (hp : src.parse = .ok file) (hr : file.render = .ok out) :
    ∃ s t, TokenStream.ofSource src = .ok s ∧ TokenStream.ofSource (.ofString path out) = .ok t ∧
      t.words = s.words ∧
      ∀ (i : Nat) (u v v' : Lexeme) (before split split' : Bool),
        s.cells[i]? = some (before, u) → s.cells[i + 1]? = some (split, v) →
          t.cells[i + 1]? = some (split', v') → v ≠ .op (.closing .curly) →
            (split' = true → split = true) ∧
              (u.endsLine = true → split = true → split' = true) := by
  rw [Source.parse_eq_ok_iff] at hp
  obtain ⟨s, hs⟩ := Source.ofSource_of_parse? hp
  obtain ⟨ms, ss, _, hreach, hsigns, hk⟩ := kept_of_render (Source.lies_of_parse hp).1 hr
  have hm : Matches none (cells false (settle false (ms.flatMap Mark.signs)))
      (cells false (settle false ss)) := hk.matches fun _ => rfl
  have hsrc := TokenStream.lexemes_eq hs (hreach.signs rfl)
  have hwords : (settle false ss).filter (!·.isSemicolon) = s.words := by
    rw [← snd_cells false, hm.lexemes_eq, ← hsrc, snd_cells, TokenStream.words]
  obtain ⟨t, ht⟩ : ∃ t, TokenStream.ofSource (.ofString path out) = .ok t :=
    TokenStream.exists_of_signs hsigns (closes_filter.1 (hwords ▸ TokenStream.closes hs))
  have hout : t.tokens.map (·.lexeme) = settle false ss := TokenStream.lexemes_eq ht hsigns
  refine ⟨s, t, hs, ht, by rw [TokenStream.words, hout, hwords], ?_⟩
  intro i u v v' before split split' hu hv hv' hn
  rw [TokenStream.cells, hsrc] at hu hv
  rw [TokenStream.cells, hout] at hv'
  exact hm.splits hu hv hv' hn

def Source.printed? (src : Source) : Option String :=
  src.parse.toOption.bind (·.render.toOption)

lemma Source.of_printed? {src : Source} {out : String} (h : src.printed? = some out) :
    ∃ file, src.parse = .ok file ∧ file.render = .ok out := by
  unfold printed? at h
  cases hp : src.parse with
  | error e => simp [hp, Except.toOption] at h
  | ok file =>
    refine ⟨file, rfl, ?_⟩
    cases hr : file.render with
    | error e => simp [hp, hr, Except.toOption] at h
    | ok text => simpa [hp, hr, Except.toOption] using h

set_option maxRecDepth 100000 in
theorem tokens_of_render_block :
    ∃ file s t, (Source.ofString "p.go" "package p\nfunc f() \x7b x(); // y\n\tz()\x7d\n").parse = .ok file ∧
      file.render = .ok "package p\nfunc f() \x7b\n\tx() // y\n\tz()\n\x7d\n" ∧
      TokenStream.ofSource (.ofString "p.go" "package p\nfunc f() \x7b x(); // y\n\tz()\x7d\n") = .ok s ∧
      TokenStream.ofSource (.ofString "q.go" "package p\nfunc f() \x7b\n\tx() // y\n\tz()\n\x7d\n") =
        .ok t ∧ t.words = s.words := by
  have hprinted : (Source.ofString "p.go" "package p\nfunc f() \x7b x(); // y\n\tz()\x7d\n").printed? =
      some "package p\nfunc f() \x7b\n\tx() // y\n\tz()\n\x7d\n" := by decide +kernel
  obtain ⟨file, hp, hr⟩ := Source.of_printed? hprinted
  obtain ⟨s, t, hs, ht, hw, _⟩ := tokens_of_render "q.go" hp hr
  exact ⟨file, s, t, hp, hr, hs, ht, hw⟩

def foldedSource : Source :=
  .ofString "p.go" "package p\n\nfunc f() \x7b\n\tif x \x7b switch y \x7b case 1: a() \x7d \x7d\n\x7d\n"

set_option maxRecDepth 100000 in
/-- The block is left open behind its brace, and opened up only when its text is printed again. -/
theorem printed_again_foldedSource :
    ∃ out again, foldedSource.printed? = some out ∧
      (Source.ofString "p.go" out).printed? = some again ∧ again ≠ out :=
  ⟨"package p\n\nfunc f() \x7b\n\tif x \x7b switch y \x7b\n\tcase 1:\n\t\ta()\n\t\x7d \x7d\n\x7d\n",
    "package p\n\nfunc f() \x7b\n\tif x \x7b\n\t\tswitch y \x7b\n\t\tcase 1:\n\t\t\ta()\n\t\t\x7d\n\t\x7d\n\x7d\n",
    by decide +kernel, by decide +kernel, by decide⟩

end ParallelTests
