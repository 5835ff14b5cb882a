import ParallelTests.Proofs.Parse.File
import ParallelTests.Proofs.Scan.Noted
import Mathlib.Data.List.Chain
import Mathlib.Order.Bounds.Basic

/-!
The semicolons that are not written: which tokens one follows, and at which offset. What lies between
two written tokens decides both, whatever blanks, newlines and comments it is made of.
-/

namespace ParallelTests

/-- The lexemes that end a statement at the end of their line, by their texts. -/
def Lexeme.Triggers : Lexeme → Prop
  | .ident _ | .number _ | .rune _ | .string _ => True
  | .keyword k => k.text ∈ ["break", "continue", "fallthrough", "return"]
  | .op o => o.text ∈ ["++", "--", ")", "]", "\x7d"]
  | .semicolon _ => False

lemma Lexeme.endsLine_iff {l : Lexeme} : l.endsLine = true ↔ l.Triggers := by
  cases l with
  | keyword k => cases k <;> simp [endsLine, Triggers, Keyword.text]
  | op o =>
    have hall : ∀ o ∈ Operator.all,
        (op o).endsLine = true ↔ o.text ∈ ["++", "--", ")", "]", "\x7d"] := by decide
    exact hall o (Operator.mem_all o)
  | semicolon w => simp [endsLine, Triggers]
  | _ => simp [endsLine, Triggers]

/-- An offset at which a line ends: that of a newline outside comments, that of a block comment with a
newline in it, or the end of the source. -/
def TokenStream.EndsLineAt (s : TokenStream) (o : Nat) : Prop :=
  (s.source.chars[o]? = some '\n' ∧ ∀ c ∈ s.comments, ¬(c.start ≤ o ∧ o < c.stop)) ∨
    (∃ c ∈ s.comments, c.start = o ∧ Scan.IsBlock c.text.toList ∧ '\n' ∈ c.text.toList) ∨
    o = s.source.size

namespace Scan

variable {src : List Char} {a b : Nat} {pending : Bool} {ts : List Token} {t : Token}

namespace Strung

lemma isChain (h : Strung src a pending ts) :
    ts.IsChain fun t t' => ¬(t.isAutomatic = true ∧ t'.isAutomatic = true) := by
  induction h with
  | nil => exact .nil
  | written _ _ hop _ ih =>
    refine List.isChain_cons.2 ⟨fun t' _ ht => ?_, ih⟩
    exact hop.not_automatic (by simpa [Token.isAutomatic] using ht.1)
  | automatic _ _ _ _ _ rest ih =>
    refine List.isChain_cons.2 ⟨fun t' ht' ht => ?_, ih⟩
    rw [rest.head_not_automatic t' ht'] at ht
    exact Bool.false_ne_true ht.2

lemma newline_mem (h : Strung src a false ts)
    (hb : ∀ ns b, Reach src a ns b → a < b → ∃ m ∈ ns, m.breaks = true) :
    ∀ v ∈ ts.find? (!·.isAutomatic), '\n' ∈ cut src a v.start := by
  cases h with
  | nil => simp
  | @written _ _ ms v ts h hq hop _ =>
    intro w hw
    have hv : v.isAutomatic = false := by simpa [Token.isAutomatic] using hop.not_automatic
    rw [List.find?_cons_of_pos (by simp [hv]), Option.mem_some] at hw
    subst hw
    obtain ⟨m, hm, hbreak⟩ := hb _ _ (h.trans (.single hop)) (h.le.trans_lt hop.lt)
    rw [h.newline_mem fun m hm => (hq m hm).1]
    -- the token itself ends no line
    rcases List.mem_append.1 hm with hm | hm
    · exact ⟨m, hm, hbreak⟩
    · obtain rfl := List.mem_singleton.1 hm
      simp [Mark.breaks] at hbreak

lemma automatic_iff (h : Strung src a pending ts) :
    (∃ t ∈ ts.head?, t.isAutomatic = true) ↔
      pending = true ∧ ∀ v ∈ ts.find? (!·.isAutomatic), '\n' ∈ cut src a v.start := by
  cases h with
  | nil => simp
  | @written _ _ ms v ts h hq hop _ =>
    have hv : v.isAutomatic = false := by simpa [Token.isAutomatic] using hop.not_automatic
    rw [List.find?_cons_of_pos (by simp [hv])]
    refine ⟨by simp [hv], fun hopen => ?_⟩
    obtain ⟨hp, hnewline⟩ := hopen
    obtain ⟨m, hm, hbreak⟩ := (h.newline_mem fun m hm => (hq m hm).1).1 (hnewline v rfl)
    rw [(hq m hm).2 hp] at hbreak
    cases hbreak
  | @automatic _ ms t ts h hq hl _ hb rest =>
    have ht : t.isAutomatic = true := by simpa [Token.isAutomatic] using hl
    rw [List.find?_cons_of_neg (by simp [ht])]
    refine ⟨fun _ => ⟨rfl, fun v hv => ?_⟩, fun _ => ⟨t, rfl, ht⟩⟩
    have hle : t.start ≤ v.start := by
      cases rest with
      | nil => simp at hv
      | @written _ _ _ w _ h _ hop =>
        have hw : w.isAutomatic = false := by simpa [Token.isAutomatic] using hop.not_automatic
        rw [List.find?_cons_of_pos (by simp [hw]), Option.mem_some] at hv
        exact hv ▸ h.le
    rw [← cut_append h.le hle]
    exact List.mem_append_right _ (rest.newline_mem hb v hv)

lemma automatic_inv (h : Strung src a pending (t :: ts)) (ht : t.isAutomatic = true) :
    ∃ ms, Reach src a ms t.start ∧ Quiet true ms ∧
      (t.start = src.length ∨ ∃ mark m, Hop src t.start [mark] m ∧ mark.breaks = true) := by
  cases h with
  | written _ _ hop => exact absurd (by simpa [Token.isAutomatic] using ht) hop.not_automatic
  | @automatic _ ms _ _ h hq _ _ hb rest =>
    refine ⟨ms, h, hq, ?_⟩
    have hnext {ns : List Mark} {b : Nat} (hr : Reach src t.start ns b) (hlt : t.start < b) :
        ∃ mark m, Hop src t.start [mark] m ∧ mark.breaks = true := by
      cases hr with
      | refl => exact absurd hlt (Nat.lt_irrefl _)
      | @step _ m _ ms' _ hop =>
        obtain ⟨mark, hm, hbreak⟩ := hb _ _ (.single hop) hop.lt
        rcases hop.marks_cases with rfl | ⟨_, rfl⟩
        · simp at hm
        · obtain rfl := List.mem_singleton.1 hm
          exact ⟨mark, m, hop, hbreak⟩
    cases rest with
    | nil hr =>
      rcases hr.le.eq_or_lt with he | hlt
      · exact .inl he
      · exact .inr (hnext hr hlt)
    | written hr _ hop => exact .inr (hnext (hr.trans (.single hop)) (hr.le.trans_lt hop.lt))

end Strung

end Scan

namespace TokenStream

open Scan

variable {src : Source} {s : TokenStream}

lemma noted (h : ofSource src = .ok s) : Noted src.chars 0 s.comments := by
  obtain ⟨its, hits, -, -, hcom, -⟩ := of_ofSource h
  exact hcom ▸ noted_of_items hits rfl (Nat.zero_le _)

lemma source_eq (h : ofSource src = .ok s) : s.source = src := by
  obtain ⟨_, -, he, -⟩ := of_ofSource h
  exact he

lemma endsLineAt_of_hop (h : ofSource src = .ok s) {o m : Nat} {mark : Mark} (ho : Sync src.chars o)
    (hop : Hop src.chars o [mark] m) (hb : mark.breaks = true) : s.EndsLineAt o := by
  have hnoted := noted h
  cases mark with
  | newline =>
    left
    rw [source_eq h]
    refine ⟨hop.newline_inv, fun c hc hin => ?_⟩
    obtain ⟨hle, hlt⟩ := hin
    obtain ⟨hsync, hop'⟩ := hnoted.mem sync_zero hc
    rcases hle.eq_or_lt with he | hstart
    · have := (hop.unique (he ▸ hop')).1
      simp at this
    · obtain ⟨ns, hr⟩ := hsync.to ho hle
      obtain ⟨rest, -, hpast⟩ := hr.past hop' hstart
      exact absurd hpast.le (Nat.not_le.2 hlt)
  | remark text =>
    right; left
    obtain ⟨ns, hr⟩ := ho
    obtain ⟨c, hc, rfl, -, rfl⟩ := hnoted.exists_of_hop hr hop
    have hmem : '\n' ∈ c.text.toList := by simpa [Mark.breaks] using hb
    refine ⟨c, hc, rfl, ?_, hmem⟩
    obtain ⟨d, x, cs, htext, -, hf, -⟩ := hop.remark_inv
    rw [htext] at hmem ⊢
    refine (comment_cases hf).resolve_right fun hline => ?_
    obtain ⟨⟨y, hy, hn⟩, -⟩ := hline
    rw [hy] at hmem
    simp only [List.mem_cons, Char.reduceEq, false_or] at hmem
    exact hn _ hmem rfl
  | lexeme => simp [Mark.breaks] at hb

lemma not_endsLineAt_of_reach (h : ofSource src = .ok s) {a b o : Nat} {ms : List Mark}
    (ha : Sync src.chars a) (hr : Reach src.chars a ms b) (hq : Quiet true ms) (hle : a ≤ o)
    (hlt : o < b) : ¬s.EndsLineAt o := by
  have hbreak : ¬∃ m ∈ ms, m.breaks = true := by
    rintro ⟨m, hm, hb⟩
    rw [(hq m hm).2 rfl] at hb
    cases hb
  rintro (⟨hnewline, -⟩ | ⟨c, hc, rfl, -, hmem⟩ | rfl)
  · rw [source_eq h] at hnewline
    apply hbreak
    rw [← hr.newline_mem fun m hm => (hq m hm).1]
    exact mem_cut_iff.2 ⟨o, hle, hlt, hnewline⟩
  · obtain ⟨hsync, hop⟩ := (noted h).mem sync_zero hc
    obtain ⟨ns, hns⟩ := ha.to hsync hle
    obtain ⟨rest, rfl, hrest⟩ := hns.split hr (Nat.le_of_lt hlt)
    obtain ⟨rest, rfl, -⟩ := hrest.past hop hlt
    exact hbreak ⟨.remark c.text.toList, by simp, by simpa [Mark.breaks] using hmem⟩
  · rw [source_eq h] at hlt
    exact absurd hr.le_length (Nat.not_le.2 hlt)

/-- An automatic semicolon follows a written token exactly if the token triggers one and a newline, or
the end of the source, comes before the next written token; it stands where the first line ends. -/
theorem automatic_exact (h : ofSource src = .ok s) :
    (∀ before t after, s.tokens = before ++ t :: after → t.isAutomatic = false →
      ((∃ semi ∈ after.head?, semi.isAutomatic = true) ↔
        t.lexeme.Triggers ∧ ∀ next ∈ after.find? (!·.isAutomatic),
          ∃ o, t.stop ≤ o ∧ o < next.start ∧ src.chars[o]? = some '\n') ∧
      ∀ semi ∈ after.head?, semi.isAutomatic = true →
        IsLeast {o | t.stop ≤ o ∧ s.EndsLineAt o} semi.start) ∧
    (s.tokens.IsChain fun t t' => ¬(t.isAutomatic = true ∧ t'.isAutomatic = true)) ∧
    ∀ t ∈ s.tokens.head?, t.isAutomatic = false := by
  have hstrung := strung h
  refine ⟨fun before t after htokens ht => ?_, hstrung.isChain, hstrung.head_not_automatic⟩
  rw [htokens] at hstrung
  obtain ⟨hop, hbehind⟩ := hstrung.behind ht
  have hsync : Sync src.chars t.stop := (hstrung.mem sync_zero (by simp)).2.1
  constructor
  · rw [hbehind.automatic_iff, Lexeme.endsLine_iff]
    simp only [mem_cut_iff]
  · intro semi hsemi hauto
    obtain ⟨after, rfl⟩ := List.head?_eq_some_iff.1 hsemi
    obtain ⟨ms, hr, hq, hend⟩ := hbehind.automatic_inv hauto
    refine ⟨⟨hr.le, ?_⟩, fun o ⟨hle, ho⟩ => ?_⟩
    · rcases hend with he | ⟨mark, m, hop, hb⟩
      · right; right
        rw [he, source_eq h]
        rfl
      · exact endsLineAt_of_hop h (hsync.reach hr) hop hb
    · by_contra hlt
      exact not_endsLineAt_of_reach h hsync hr hq hle (Nat.not_le.1 hlt) ho

end TokenStream

def noteSource : Source := .ofString "p.go" "package p /* one\ntwo */ // three\nvar x = (1)"

set_option maxRecDepth 100000 in
theorem automatic_exact_noteSource :
    ∃ s pkg t after semi, TokenStream.ofSource noteSource = .ok s ∧
      s.tokens = [pkg] ++ t :: after ∧ t.lexeme = .ident "p" ∧ t.stop = 9 ∧
      after.head? = some semi ∧ semi.isAutomatic = true ∧ semi.start = 10 ∧ t.lexeme.Triggers ∧
      (∀ next ∈ after.find? (!·.isAutomatic),
        ∃ o, 9 ≤ o ∧ o < next.start ∧ noteSource.chars[o]? = some '\n') ∧
      IsLeast {o | 9 ≤ o ∧ s.EndsLineAt o} 10 := by
  have hstream : (TokenStream.ofSource noteSource).toOption.map (·.tokens.take 3) =
      some [⟨.keyword .kwPackage, 0, 7, 1, 1, 1⟩, ⟨.ident "p", 8, 9, 1, 9, 1⟩,
        ⟨.semicolon false, 10, 10, 1, 11, 1⟩] := by
    decide +kernel
  obtain ⟨s, hs, htake⟩ := Option.map_eq_some_iff.1 hstream
  have hok := Except.toOption_eq_some.1 hs
  have htokens : s.tokens = [⟨.keyword .kwPackage, 0, 7, 1, 1, 1⟩] ++
      ⟨.ident "p", 8, 9, 1, 9, 1⟩ :: ⟨.semicolon false, 10, 10, 1, 11, 1⟩ :: s.tokens.drop 3 := by
    calc s.tokens = s.tokens.take 3 ++ s.tokens.drop 3 := (List.take_append_drop 3 _).symm
      _ = _ := by rw [htake]; rfl
  obtain ⟨hiff, hleast⟩ := (TokenStream.automatic_exact hok).1 _ _ _ htokens rfl
  obtain ⟨htriggers, hnewline⟩ := hiff.1 ⟨_, rfl, rfl⟩
  exact ⟨s, _, _, _, _, hok, htokens, rfl, rfl, rfl, rfl, rfl, htriggers, hnewline,
    hleast _ rfl rfl⟩

end ParallelTests
