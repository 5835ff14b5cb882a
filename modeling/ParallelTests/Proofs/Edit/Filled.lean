import ParallelTests.Proofs.Edit.Gains
import ParallelTests.Proofs.Print.Tokens

namespace ParallelTests

open Scan

namespace Scan

lemma Quiet.words {pending : Bool} {ms : List Mark} (h : Quiet pending ms)
    (extra : Nat → List Lexeme) : ms.flatMap (Mark.words extra) = [] := by
  refine List.flatMap_eq_nil_iff.2 fun m hm => ?_
  have := (h m hm).1
  cases m <;> simp_all [Mark.isQuiet, Mark.words]

lemma Quiet.not_lexeme {pending : Bool} {ms : List Mark} (h : Quiet pending ms) {o : Nat}
    {l : Lexeme} : .lexeme o l ∉ ms :=
  fun hm => by simpa [Mark.isQuiet] using (h _ hm).1

lemma Strung.marks {src : List Char} {a : Nat} {pending : Bool} {ts : List Token}
    (h : Strung src a pending ts) : ∃ ms, Reach src a ms src.length ∧
      (∀ extra, ms.flatMap (Mark.words extra) =
        ts.flatMap fun t => if t.lexeme.isSemicolon then [] else t.lexeme :: extra t.start) ∧
      ∀ o l, .lexeme o l ∈ ms → ∃ t ∈ ts, t.start = o ∧ t.lexeme = l := by
  induction h with
  | @nil a ms h hq => exact ⟨ms, h, fun extra => hq.words extra, fun o l hm => absurd hm hq.not_lexeme⟩
  | @written a pending ms t ts h hq hop _ ih =>
    obtain ⟨ns, hr, hw, hl⟩ := ih
    refine ⟨ms ++ ([.lexeme t.start t.lexeme] ++ ns), h.trans (.step hop hr), fun extra => ?_, ?_⟩
    · rw [List.flatMap_append, List.flatMap_append, hq.words, hw, List.nil_append, List.flatMap_cons]
      simp [Mark.words]
    · intro o l hm
      rcases List.mem_append.1 hm with hm | hm
      · exact absurd hm hq.not_lexeme
      rcases List.mem_append.1 hm with hm | hm
      · obtain ⟨rfl, rfl⟩ := Mark.lexeme.inj (List.mem_singleton.1 hm)
        exact ⟨t, by simp, rfl, rfl⟩
      · obtain ⟨t', ht', h⟩ := hl o l hm
        exact ⟨t', by simp [ht'], h⟩
  | @automatic a ms t ts h hq hlex _ _ _ ih =>
    obtain ⟨ns, hr, hw, hl⟩ := ih
    refine ⟨ms ++ ns, h.trans hr, fun extra => ?_, fun o l hm => ?_⟩
    · rw [List.flatMap_append, hq.words, hw, List.nil_append, List.flatMap_cons, hlex]
      rfl
    · rcases List.mem_append.1 hm with hm | hm
      · exact absurd hm hq.not_lexeme
      · obtain ⟨t', ht', h⟩ := hl o l hm
        exact ⟨t', by simp [ht'], h⟩

end Scan

namespace TokenStream

def wordsWith (s : TokenStream) (extra : Nat → List Lexeme) : List Lexeme :=
  s.tokens.flatMap fun t => if t.lexeme.isSemicolon then [] else t.lexeme :: extra t.start

variable {src : Source} {s : TokenStream}

lemma marks (h : ofSource src = .ok s) :
    ∃ ms, Reach src.chars 0 ms src.size ∧
      (∀ extra, ms.flatMap (Mark.words extra) = s.wordsWith extra) ∧
      ∀ o l, .lexeme o l ∈ ms → ∃ t ∈ s.tokens, t.start = o ∧ t.lexeme = l :=
  (strung h).marks

lemma exists_of_brace (h : ofSource src = .ok s) {o : Nat} (hb : Brace src.chars o) :
    ∃ t ∈ s.tokens, t.start = o ∧ t.lexeme = .openCurly := by
  obtain ⟨ms, hr, -, hl⟩ := marks h
  obtain ⟨ns, hn⟩ := hb.sync
  have hopen := hn.trans (.single hb.hop)
  obtain ⟨rest, rfl, -⟩ := hopen.split hr hopen.le_length
  exact hl o .openCurly (by simp)

lemma closes_wordsWith {extra : Nat → List Lexeme}
    (hx : ∀ o bs, (extra o).foldlM Lexeme.nests bs = some bs) (h : ofSource src = .ok s) :
    Closes [] (s.wordsWith extra) := by
  have hall (ts : List Token) (bs : List Bracket) :
      Closes bs (ts.flatMap fun t => if t.lexeme.isSemicolon then [] else t.lexeme :: extra t.start) ↔
        Closes bs ((ts.map (·.lexeme)).filter (!·.isSemicolon)) := by
    induction ts generalizing bs with
    | nil => rfl
    | cons t ts ih =>
      rw [List.flatMap_cons, List.map_cons]
      cases hl : t.lexeme.isSemicolon with
      | true => simpa [hl] using ih bs
      | false =>
        simp only [hl, Bool.false_eq_true, if_false, List.cons_append, Bool.not_false,
          List.filter_cons_of_pos, Closes, List.foldlM_cons, List.foldlM_append]
        cases Lexeme.nests bs t.lexeme with
        | none => rfl
        | some bs' =>
          simp only [Option.bind_eq_bind, Option.bind_some, hx]
          exact ih bs'
  exact (hall s.tokens []).2 (closes h)

end TokenStream

lemma foldlM_behind (ins : List (Nat × Insert)) (o : Nat) (bs : List Bracket) :
    (behind ins o).foldlM Lexeme.nests bs = some bs := by
  have hone (i : Insert) : i.lexemes.foldlM Lexeme.nests bs = some bs := by
    cases i <;> rfl
  rw [behind]
  induction ins.filter (·.1 = o) with
  | nil => rfl
  | cons p ps ih =>
    rw [List.flatMap_cons, List.foldlM_append, hone]
    exact ih

lemma Filled.words {src : Source} {s : TokenStream} {ins : List (Nat × Insert)} {n : Node}
    {out : String} (h : Filled src.chars ins (.node n) 0 src.size)
    (hs : TokenStream.ofSource src = .ok s) (hr : n.render = .ok out) (path : String) :
    ∃ t, TokenStream.ofSource (.ofString path out) = .ok t ∧ t.words = s.wordsWith (behind ins) := by
  obtain ⟨ms, ss, _, hreach, hsigns, hk⟩ := kept_of_render h.laid hr
  obtain ⟨ms', hreach', hw, -⟩ := TokenStream.marks hs
  obtain rfl := hreach.unique hreach'
  have hwords : (settle false ss).filter (!·.isSemicolon) = s.wordsWith (behind ins) := by
    rw [filter_settle, hk.words_eq, hw]
  obtain ⟨t, ht⟩ : ∃ t, TokenStream.ofSource (.ofString path out) = .ok t :=
    TokenStream.exists_of_signs hsigns
      (closes_filter.1 (hwords ▸ TokenStream.closes_wordsWith (foldlM_behind ins) hs))
  refine ⟨t, ht, ?_⟩
  rw [TokenStream.words, TokenStream.lexemes_eq ht hsigns, hwords]

end ParallelTests
