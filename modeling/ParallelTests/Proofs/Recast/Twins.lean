import ParallelTests.Proofs.Inverse.Reading
import ParallelTests.Proofs.Parse.File
import ParallelTests.Proofs.Recast.Read
import ParallelTests.Proofs.Scan.Tiles

/-!
The groups of a source and those of its copy. The copy has the words of the source, in groups of the
same form; a semicolon more may stand before a closing brace.
-/

namespace ParallelTests

open Scan TokenGroup

def between (cs : List Comment) (a b : Nat) : List Comment :=
  cs.filter fun c => a ≤ c.start && c.start < b

structure Twin.Next (lost : Nat → Prop) (cs cs' : List Comment) (x y : Twin) : Prop where
  word : y.source.isSemicolon = false
  lexeme : y.copy.lexeme = y.source.lexeme
  meets : Meets lost x (between cs x.source.stop y.source.start)
    (between cs' x.copy.stop y.copy.start) y.source y.copy

inductive Run (lost : Nat → Prop) (cs cs' : List Comment) : Twin → List Token → List Token → Prop
  | nil {x : Twin} : Run lost cs cs' x [] []
  | semicolon {x : Twin} {t t' : Token} {ts ts' : List Token} (ht : t.isSemicolon = true)
      (he : t'.lexeme = t.lexeme) (h : Run lost cs cs' x ts ts') :
      Run lost cs cs' x (t :: ts) (t' :: ts')
  | word {x : Twin} {t t' : Token} {ts ts' : List Token} (hn : x.Next lost cs cs' ⟨t, t'⟩)
      (h : Run lost cs cs' ⟨t, t'⟩ ts ts') : Run lost cs cs' x (t :: ts) (t' :: ts')
  | extra {x : Twin} {t t' e : Token} {ts ts' : List Token} (he : e.lexeme = .semicolon false)
      (ht : t.lexeme = .closeCurly) (hn : x.Next lost cs cs' ⟨t, t'⟩)
      (h : Run lost cs cs' ⟨t, t'⟩ ts ts') : Run lost cs cs' x (t :: ts) (e :: t' :: ts')

inductive Twins (lost : Nat → Prop) (cs cs' : List Comment) :
    Bool → Twin → List TokenGroup → List TokenGroup → Twin → Prop
  | nil {f : Bool} {x : Twin} : Twins lost cs cs' f x [] [] x
  | extra {x : Twin} {e : Token} (he : e.lexeme = .semicolon false) :
      Twins lost cs cs' true x [] [.leaf e] x
  | semicolon {f : Bool} {x y : Twin} {t t' : Token} {gs gs' : List TokenGroup}
      (ht : t.isSemicolon = true) (he : t'.lexeme = t.lexeme) (h : Twins lost cs cs' f x gs gs' y) :
      Twins lost cs cs' f x (.leaf t :: gs) (.leaf t' :: gs') y
  | word {f : Bool} {x y : Twin} {t t' : Token} {gs gs' : List TokenGroup}
      (hn : x.Next lost cs cs' ⟨t, t'⟩) (h : Twins lost cs cs' f ⟨t, t'⟩ gs gs' y) :
      Twins lost cs cs' f x (.leaf t :: gs) (.leaf t' :: gs') y
  | pair {f : Bool} {x y z : Twin} {k : Bracket} {o o' c c' : Token}
      {inner inner' gs gs' : List TokenGroup} (ho : x.Next lost cs cs' ⟨o, o'⟩)
      (hi : Twins lost cs cs' (k = .curly) ⟨o, o'⟩ inner inner' y) (hc : y.Next lost cs cs' ⟨c, c'⟩)
      (h : Twins lost cs cs' f ⟨c, c'⟩ gs gs' z) :
      Twins lost cs cs' f x (.pair k o inner c :: gs) (.pair k o' inner' c' :: gs') z

/-! ### From items to tokens -/

structure Behind (source : Source) (all : List Comment) (u : Token) (cs : List Comment)
    (its : List ParallelTests.Item) : Prop where
  reading : ∃ earlier m, all = earlier ++ (cs ++ its.filterMap Item.comment?) ∧
    (∀ c ∈ earlier, c.start < u.stop) ∧ (∀ c ∈ cs, u.stop ≤ c.start ∧ c.start < m) ∧ u.stop ≤ m ∧
    Tiled source m (its.filterMap Item.tile?)

namespace Behind

variable {source : Source} {all cs : List Comment} {u t : Token} {c : Comment}
  {its : List ParallelTests.Item}

lemma comment (h : Behind source all u cs (.comment c :: its)) :
    Behind source all u (cs ++ [c]) its := by
  obtain ⟨earlier, m, hall, he, hcs, hm, ht⟩ := h
  cases ht with
  | @cons _ tile _ ha _ hl rest =>
    have hlt : c.start < c.stop := hl.nonempty
    have hle : m ≤ c.start := ha
    refine ⟨earlier, _, by simpa [Item.comment?] using hall, he, fun d hd => ?_, ?_, rest⟩
    · rcases List.mem_append.1 hd with hd | hd
      · exact (hcs d hd).imp_right fun h => (h.trans_le hle).trans hlt
      · obtain rfl := List.mem_singleton.1 hd
        exact ⟨hm.trans hle, hlt⟩
    · exact (hm.trans hle).trans hlt.le

lemma semicolon (h : Behind source all u cs (.token t :: its)) : Behind source all u cs its := by
  obtain ⟨earlier, m, hall, he, hcs, hm, ht⟩ := h
  cases ha : t.isAutomatic with
  | true =>
    rw [List.filterMap_cons_none (by simp [Item.tile?, ha])] at ht
    exact ⟨earlier, m, hall, he, hcs, hm, ht⟩
  | false =>
    rw [List.filterMap_cons_some (b := t.tile) (by simp [Item.tile?, ha])] at ht
    cases ht with
    | cons hle _ hl rest =>
      have hlt := hle.trans hl.nonempty.le
      exact ⟨earlier, _, hall, he, fun d hd => (hcs d hd).imp_right fun h => h.trans_le hlt,
        hm.trans hlt, rest⟩

lemma word (h : Behind source all u cs (.token t :: its)) (ht : t.isSemicolon = false) :
    between all u.stop t.start = cs ∧ Behind source all t [] its := by
  obtain ⟨earlier, m, hall, he, hcs, hm, hts⟩ := h
  have ha : t.isAutomatic = false := by
    cases hl : t.lexeme <;> simp_all [Token.isAutomatic, Token.isSemicolon]
  simp only [List.filterMap_cons, Item.comment?] at hall
  rw [List.filterMap_cons_some (b := t.tile) (by simp [Item.tile?, ha])] at hts
  cases hts with
  | cons hle _ hl rest =>
    have hlt : t.start < t.stop := hl.nonempty
    replace hle : m ≤ t.start := hle
    have hlater : ∀ c ∈ its.filterMap Item.comment?, t.stop ≤ c.start := by
      intro c hc
      obtain ⟨it, hit, hc⟩ := List.mem_filterMap.1 hc
      have htile : it.tile? = some c.tile := by
        cases it with
        | token => cases hc
        | comment d =>
          cases hc
          rfl
      exact (rest.mem (List.mem_filterMap.2 ⟨it, hit, htile⟩)).1
    constructor
    · have hbefore : earlier.filter (fun c => u.stop ≤ c.start && c.start < t.start) = [] := by
        refine List.filter_eq_nil_iff.2 fun c hc => ?_
        have := he c hc
        simp
        omega
      have hhere : cs.filter (fun c => u.stop ≤ c.start && c.start < t.start) = cs := by
        refine List.filter_eq_self.2 fun c hc => ?_
        have := hcs c hc
        simp
        omega
      have hbehind : (its.filterMap Item.comment?).filter
          (fun c => u.stop ≤ c.start && c.start < t.start) = [] := by
        refine List.filter_eq_nil_iff.2 fun c hc => ?_
        have := hlater c hc
        simp
        omega
      rw [hall, between, List.filter_append, List.filter_append, hbefore, hhere, hbehind,
        List.nil_append, List.append_nil]
    · refine ⟨earlier ++ cs, _, by simpa using hall, fun c hc => ?_, by simp,
        Nat.le_refl _, rest⟩
      rcases List.mem_append.1 hc with hc | hc
      · have := he c hc
        omega
      · have := (hcs c hc).2
        omega

end Behind

variable {lost : Nat → Prop} {all all' : List Comment}

lemma Alike.run {source copy : Source} {x : Twin} {cs cs' : List Comment}
    {its its' : List ParallelTests.Item} (h : Alike lost x cs cs' its its')
    (hs : Behind source all x.source cs its) (hc : Behind copy all' x.copy cs' its') :
    Run lost all all' x (its.filterMap Item.token?) (its'.filterMap Item.token?) := by
  induction h with
  | nil => exact .nil
  | semicolon ht he _ ih => exact .semicolon ht he (ih hs.semicolon hc.semicolon)
  | comment _ ih => exact ih hs.comment hc.comment
  | lose _ ih => exact ih hs.comment hc
  | @word x cs cs' _ _ t t' ht he hm _ ih =>
    obtain ⟨hb, hs⟩ := hs.word ht
    obtain ⟨hb', hc⟩ := hc.word (by simpa [Token.isSemicolon, he] using ht)
    exact .word ⟨ht, he, by rwa [hb, hb']⟩ (ih hs hc)
  | @extra x cs cs' _ _ t t' e hx ht he hm _ ih =>
    have hts : t.isSemicolon = false := by simp [Token.isSemicolon, ht, Lexeme.closeCurly]
    obtain ⟨hb, hs⟩ := hs.word hts
    obtain ⟨hb', hc⟩ := hc.semicolon.word (by simp [Token.isSemicolon, he, ht, Lexeme.closeCurly])
    exact .extra hx ht ⟨hts, he, by rwa [hb, hb']⟩ (ih hs hc)

/-! ### From tokens to groups -/

variable {x y z : Twin} {gs gs' hs hs' : List TokenGroup} {f : Bool}

namespace Twins

lemma relax (h : Twins lost all all' false x gs gs' y) (f : Bool) :
    Twins lost all all' f x gs gs' y := by
  generalize hf : false = g at h
  induction h with
  | nil => exact .nil
  | extra => cases hf
  | semicolon ht he _ ih => exact .semicolon ht he (ih hf)
  | word hn _ ih => exact .word hn (ih hf)
  | pair ho hi hc _ _ ih => exact .pair ho hi hc (ih hf)

lemma append (h : Twins lost all all' false x gs gs' y) (h' : Twins lost all all' f y hs hs' z) :
    Twins lost all all' f x (gs ++ hs) (gs' ++ hs') z := by
  generalize hf : false = g at h
  induction h with
  | nil => exact h'
  | extra => cases hf
  | semicolon ht he _ ih => exact .semicolon ht he (ih h' hf)
  | word hn _ ih => exact .word hn (ih h' hf)
  | pair ho hi hc _ _ ih => exact .pair ho hi hc (ih h' hf)

end Twins

theorem Run.twins {gs : List TokenGroup} {rest ts : List Token} {x : Twin} (hm : ∀ g ∈ gs, g.Matched)
    (h : Run lost all all' x (tokens gs ++ rest) ts) : ∃ gs' rest' y, ts = tokens gs' ++ rest' ∧
      Twins lost all all' false x gs gs' y ∧ Run lost all all' y rest rest' ∧
        Grouped (tokens gs') gs' := by
  match gs with
  | [] => exact ⟨[], ts, x, rfl, .nil, by simpa using h, by simpa using Grouped.nil⟩
  | .leaf t :: gs =>
    obtain ⟨hleaf, hgs⟩ := List.forall_mem_cons.1 hm
    rw [tokens_cons, spelled_leaf, List.append_assoc, List.singleton_append] at h
    obtain ⟨ho, hc⟩ : (∀ b, t.lexeme ≠ .op (.opening b)) ∧ ∀ b, t.lexeme ≠ .op (.closing b) := by
      cases hleaf with
      | leaf ho hc => exact ⟨ho, hc⟩
    have hgrouped {t' : Token} {gs' : List TokenGroup} (he : t'.lexeme = t.lexeme)
        (h : Grouped (tokens gs') gs') : Grouped (tokens (.leaf t' :: gs')) (.leaf t' :: gs') := by
      rw [tokens_cons, spelled_leaf]
      exact (Grouped.leaf (he ▸ ho) (he ▸ hc)).append h
    cases h with
    | semicolon ht he h =>
      obtain ⟨gs', rest', y, rfl, htwins, hrest, hg⟩ := Run.twins hgs h
      exact ⟨_, rest', y, by simp, .semicolon ht he htwins, hrest, hgrouped he hg⟩
    | word hn h =>
      obtain ⟨gs', rest', y, rfl, htwins, hrest, hg⟩ := Run.twins hgs h
      exact ⟨_, rest', y, by simp, .word hn htwins, hrest, hgrouped hn.lexeme hg⟩
    | extra _ ht => exact absurd ht (hc .curly)
  | .pair k o inner c :: gs =>
    obtain ⟨hpair, hgs⟩ := List.forall_mem_cons.1 hm
    obtain ⟨ho, hc, hinner⟩ : o.lexeme = .op (.opening k) ∧ c.lexeme = .op (.closing k) ∧
        ∀ g ∈ inner, g.Matched := by
      cases hpair with
      | pair ho hc h => exact ⟨ho, hc, h⟩
    simp only [tokens_cons, spelled_pair, List.cons_append, List.append_assoc, List.nil_append] at h
    have hgrouped {o' c' : Token} {inner' gs' : List TokenGroup} (heo : o'.lexeme = o.lexeme)
        (hec : c'.lexeme = c.lexeme) (hi : Grouped (tokens inner') inner')
        (h : Grouped (tokens gs') gs') :
        Grouped (tokens (.pair k o' inner' c' :: gs')) (.pair k o' inner' c' :: gs') := by
      rw [tokens_cons, spelled_pair]
      exact (hi.pair (heo.trans ho) (hec.trans hc)).append h
    cases h with
    | semicolon ht => simp [Token.isSemicolon, ho] at ht
    | extra _ ht => cases ho.symm.trans ht
    | @word _ _ o' _ _ hno h =>
      obtain ⟨inner', rest', y, rfl, hti, hrest, hgi⟩ := Run.twins hinner h
      cases hrest with
      | semicolon ht => simp [Token.isSemicolon, hc] at ht
      | @word _ _ c' _ _ hnc hmore =>
        obtain ⟨gs', rest', z, rfl, htwins, hrest, hg⟩ := Run.twins hgs hmore
        exact ⟨_, rest', z, by simp, .pair hno (hti.relax _) hnc htwins, hrest,
          hgrouped hno.lexeme hnc.lexeme hgi hg⟩
      | @extra _ _ c' e _ _ he ht hnc hmore =>
        obtain ⟨gs', rest', z, rfl, htwins, hrest, hg⟩ := Run.twins hgs hmore
        obtain rfl : k = .curly := by
          cases hc.symm.trans ht
          rfl
        -- the semicolon is one more group inside the braces
        have hgi' : Grouped (tokens (inner' ++ [.leaf e])) (inner' ++ [.leaf e]) := by
          rw [tokens_append, tokens_cons, spelled_leaf, tokens_nil, List.append_nil]
          exact hgi.append (.leaf (by simp [he]) (by simp [he]))
        refine ⟨.pair .curly o' (inner' ++ [.leaf e]) c' :: gs', rest', z, by simp, .pair hno ?_ hnc htwins,
          hrest, hgrouped hno.lexeme hnc.lexeme hgi' hg⟩
        rw [← List.append_nil inner]
        exact hti.append (.extra he)
termination_by size gs

/-! ### From a source to its copy -/

def Twin.start : Twin := ⟨Cursor.start.semicolon, Cursor.start.semicolon⟩

variable (lost) in
lemma abreast_start : Abreast lost .start .start [] [] .start .start := by
  have hm : Gap.none.Measures Cursor.start.semicolon [] .start :=
    ⟨Nat.le_refl 0, iff_of_true rfl rfl, Nat.le_refl 1, iff_of_true rfl rfl⟩
  refine ⟨hm, hm, ?_, fun _ => rfl, ?_⟩
  · rintro ⟨name, ⟨⟩⟩
  · rintro ⟨⟩

lemma behind_start {source : Source} {its : List ParallelTests.Item} (h : source.items = .ok its) :
    Behind source (its.filterMap Item.comment?) Cursor.start.semicolon [] its :=
  ⟨[], 0, rfl, by simp, by simp, Nat.le_refl 0, tiled_of_items h rfl rfl⟩

theorem Recast.stream {source : Source} {s : TokenStream} {q : Pace} {out : String}
    (h : Recast source.chars lost .start 0 out.toList q source.size)
    (hs : TokenStream.ofSource source = .ok s) (path : String) :
    ∃ s' y, TokenStream.ofSource (.ofString path out) = .ok s' ∧
      Twins lost s.comments s'.comments false .start s.groups s'.groups y := by
  obtain ⟨its, hits, -, htokens, hcomments, hgroups⟩ := TokenStream.of_ofSource hs
  obtain ⟨its', hits', hcopies⟩ := h.items rfl rfl (abreast_start lost) hits
  have halike := (Pace.Copies.iff_of_even (by rintro ⟨⟩)).1 hcopies
  have hrun := halike.run (behind_start hits) (@behind_start (.ofString path out) _ hits')
  rw [← htokens, ← hcomments] at hrun
  obtain ⟨hkept, hm⟩ := nest_spec hgroups (by simp) (by simp)
  have hkept : tokens s.groups = s.tokens := by simpa [unread] using hkept
  rw [← hkept, ← List.append_nil (tokens s.groups)] at hrun
  obtain ⟨gs', rest', y, heq, htwins, hrest, hg⟩ := Run.twins hm hrun
  cases hrest with
  | nil =>
    rw [List.append_nil] at heq
    refine ⟨⟨.ofString path out, its'.filterMap Item.token?, its'.filterMap Item.comment?, gs'⟩, y,
      ?_, htwins⟩
    have hof : ofTokens (its'.filterMap Item.token?) = .ok gs' := heq ▸ hg.ofTokens_eq
    simp only [TokenStream.ofSource, show (Source.ofString path out).items = .ok its' from hits', hof]

end ParallelTests
