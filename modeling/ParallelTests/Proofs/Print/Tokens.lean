import ParallelTests.Proofs.Layout.Cells
import ParallelTests.Proofs.Parse.File
import ParallelTests.Proofs.Print.Tree

namespace ParallelTests

open Scan Printer

/-- The lexemes of a stream that are no semicolons. -/
def TokenStream.words (s : TokenStream) : List Lexeme :=
  (s.tokens.map (·.lexeme)).filter (!·.isSemicolon)

/-- The same, each with whether a semicolon stands before it. -/
def TokenStream.cells (s : TokenStream) : List (Bool × Lexeme) :=
  ParallelTests.cells false (s.tokens.map (·.lexeme))

lemma snd_cells (split : Bool) (ls : List Lexeme) :
    (cells split ls).map Prod.snd = ls.filter (!·.isSemicolon) := by
  induction ls generalizing split with
  | nil => rfl
  | cons l ls ih => cases hl : l.isSemicolon <;> simp [cells, hl, ih]

lemma Scan.Reach.signs {src : List Char} {a b : Nat} {ms : List Mark} (h : Reach src a ms b)
    (hb : b = src.length) : Scan.signs (src.drop a) = some (ms.flatMap Mark.signs) := by
  induction h with
  | refl => simp [hb]
  | step hop _ ih =>
    rw [List.flatMap_append]
    cases hop with
    | blank hc hbl =>
      have hd := drop_of_cons (x := []) hc
      rw [hc, signs_blank hbl, ← hd]
      exact ih hb
    | item hc hf hk =>
      rw [hc, signs_of_first hf, ← drop_of_cons hc, ih hb, Class.flatMap_marks]
      rfl

lemma TokenStream.lexemes_eq {src : Source} {s : TokenStream} {ss : List Sign}
    (h : TokenStream.ofSource src = .ok s) (hs : signs src.chars = some ss) :
    s.tokens.map (·.lexeme) = settle false ss := by
  obtain ⟨its, hits, _, htok, _⟩ := TokenStream.of_ofSource h
  obtain ⟨its', hits', hl⟩ := items_of_signs hs .start false
  obtain rfl := Except.ok.inj (hits.symm.trans hits')
  rw [htok, hl]

lemma TokenStream.exists_of_signs {src : Source} {ss : List Sign} (hs : signs src.chars = some ss)
    (hc : Closes [] (settle false ss)) : ∃ s, TokenStream.ofSource src = .ok s := by
  obtain ⟨its, hits, hl⟩ := items_of_signs hs .start false
  obtain ⟨gs, hg⟩ := TokenGroup.ofTokens_ok_iff.2 (hl ▸ hc)
  have hits' : src.items = .ok its := hits
  simp only [ofSource, hits', hg]
  exact ⟨_, rfl⟩

lemma TokenStream.closes {src : Source} {s : TokenStream} (h : TokenStream.ofSource src = .ok s) :
    Closes [] s.words := by
  obtain ⟨_, _, _, _, _, hg⟩ := TokenStream.of_ofSource h
  exact closes_filter.2 (TokenGroup.ofTokens_ok_iff.1 ⟨_, hg⟩)

lemma filter_settle (pending : Bool) (ss : List Sign) :
    (settle pending ss).filter (!·.isSemicolon) = words ss := by
  induction ss generalizing pending with
  | nil => cases pending <;> rfl
  | cons s ss ih =>
    cases s with
    | newline => cases pending <;> simpa [settle, words, Lexeme.isSemicolon] using ih false
    | lexeme l => cases hl : l.isSemicolon <;> simpa [settle, words, hl] using ih _

lemma Source.ofSource_of_parse? {src : Source} {n : Node} (h : src.parse? = .ok n) :
    ∃ s, TokenStream.ofSource src = .ok s := by
  obtain ⟨s, hs, _⟩ := Except.bind_eq_ok_iff.1 h
  exact ⟨s, hs⟩

lemma Source.parse_eq_ok_iff {src : Source} {n : Node} : src.parse = .ok n ↔ src.parse? = .ok n := by
  rw [Source.parse]
  cases src.parse? <;> simp [Except.mapError]

lemma kept_of_render {src : Source} {extra : Nat → List Lexeme} {n : Node} {out : String}
    (h : Laid src.chars extra (.node n) 0 src.size) (hr : n.render = .ok out) :
    ∃ ms ss s, Reach src.chars 0 ms src.size ∧ signs out.toList = some ss ∧
      Kept extra .free ms ss s := by
  unfold Node.render at hr
  split at hr
  · next page hpage =>
    obtain rfl := Except.ok.inj hr
    obtain ⟨w, hw, ms, ss, hreach, hsays, hkeeps⟩ :=
      emits_of_laid h none .empty page (by simp [Indents]) hpage
    obtain ⟨s, hk, _⟩ := hkeeps .free Stand.fit_free
    obtain ⟨hs, _⟩ := hsays [] (.of_endsLine (by simp [EndsLine]))
    refine ⟨ms, ss, s, hreach, ?_, hk⟩
    obtain rfl : page.text.toList = w := by simpa [Wrote, Page.empty] using hw
    simpa using hs
  · simp at hr

end ParallelTests
