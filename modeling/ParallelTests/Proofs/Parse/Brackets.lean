import Mathlib.Data.List.Pairwise
import ParallelTests.Proofs.Parse.File
import ParallelTests.Proofs.Parse.Front

/-!
Tokens can be grouped exactly if their brackets are a well-nested word. Which bracket is refused, and
which brackets belong together, is said by the word alone.
-/

namespace ParallelTests

namespace Lexeme

def isBracket : Lexeme → Bool
  | op (.opening _) | op (.closing _) => true
  | _ => false

lemma exists_of_isBracket {l : Lexeme} (h : l.isBracket = true) :
    ∃ b, l = op (.opening b) ∨ l = op (.closing b) := by
  cases l with
  | op o => cases o <;> simp_all [isBracket]
  | _ => simp [isBracket] at h

/-- Words in which every bracket has its partner. -/
inductive WellNested : List Lexeme → Prop
  | nil : WellNested []
  | wrap {b : Bracket} {u v : List Lexeme} (hu : WellNested u) (hv : WellNested v) :
      WellNested (op (.opening b) :: u ++ op (.closing b) :: v)

def Extendable (w : List Lexeme) : Prop := ∃ v, WellNested (w ++ v)

variable {w : List Lexeme} {bs : List Bracket}

lemma foldlM_nests_cons (l : Lexeme) :
    (l :: w).foldlM nests bs = (l.nests bs).bind fun cs => w.foldlM nests cs := by
  rw [List.foldlM_cons]
  rfl

lemma foldlM_nests_append (v : List Lexeme) :
    (w ++ v).foldlM nests bs = (w.foldlM nests bs).bind fun cs => v.foldlM nests cs := by
  rw [List.foldlM_append]
  rfl

lemma nests_closing_self (b : Bracket) : (op (.closing b)).nests (b :: bs) = some bs := by
  simp [nests]

lemma nests_of_not_isBracket {l : Lexeme} (h : l.isBracket = false) : l.nests bs = some bs := by
  apply nests_of_ne <;> rintro b rfl <;> simp [isBracket] at h

lemma WellNested.foldlM (h : WellNested w) (bs : List Bracket) : w.foldlM nests bs = some bs := by
  induction h generalizing bs with
  | nil => rfl
  | @wrap b u v _ _ ihu ihv =>
    rw [List.cons_append, foldlM_nests_cons]
    change ((u ++ op (.closing b) :: v).foldlM nests (b :: bs)) = some bs
    rw [foldlM_nests_append, ihu, Option.bind_some, foldlM_nests_cons, nests_closing_self,
      Option.bind_some, ihv]

def Unwinds : List Bracket → List Lexeme → Prop
  | [], w => WellNested w
  | b :: bs, w => ∃ u v, w = u ++ op (.closing b) :: v ∧ WellNested u ∧ Unwinds bs v

lemma Unwinds.wrap {b : Bracket} {u v : List Lexeme} (hu : WellNested u) (hv : Unwinds bs v) :
    Unwinds bs (op (.opening b) :: u ++ op (.closing b) :: v) := by
  cases bs with
  | nil => exact .wrap hu hv
  | cons c cs =>
    obtain ⟨u', v', rfl, hu', hv'⟩ := hv
    exact ⟨op (.opening b) :: u ++ op (.closing b) :: u', v', by simp, .wrap hu hu', hv'⟩

lemma unwinds_of_closes (hw : ∀ l ∈ w, l.isBracket = true) (h : Closes bs w) : Unwinds bs w := by
  induction w generalizing bs with
  | nil =>
    obtain rfl : bs = [] := Option.some.inj h
    exact .nil
  | cons l w ih =>
    obtain ⟨hl, hw⟩ := List.forall_mem_cons.1 hw
    rw [Closes, foldlM_nests_cons] at h
    obtain ⟨cs, hn, hc⟩ := Option.bind_eq_some_iff.1 h
    have hcs := ih hw hc
    cases l with
    | op o =>
      cases o with
      | opening b =>
        obtain rfl : b :: bs = cs := Option.some.inj hn
        obtain ⟨u, v, rfl, hu, hv⟩ := hcs
        exact .wrap hu hv
      | closing b =>
        cases bs with
        | nil => cases hn
        | cons c bs =>
          rw [nests] at hn
          split at hn
          · next hcb =>
            subst hcb
            obtain rfl := Option.some.inj hn
            exact ⟨[], w, rfl, .nil, hcs⟩
          · cases hn
      | _ => simp [isBracket] at hl
    | _ => simp [isBracket] at hl

lemma wellNested_iff (hw : ∀ l ∈ w, l.isBracket = true) : WellNested w ↔ Closes [] w :=
  ⟨fun h => h.foldlM [], unwinds_of_closes hw⟩

lemma closes_closers (bs : List Bracket) : Closes bs (bs.map fun b => op (.closing b)) := by
  induction bs with
  | nil => rfl
  | cons b bs ih =>
    rw [Closes, List.map_cons, foldlM_nests_cons, nests_closing_self]
    exact ih

lemma extendable_iff (hw : ∀ l ∈ w, l.isBracket = true) :
    Extendable w ↔ ∃ bs, w.foldlM nests [] = some bs := by
  constructor
  · rintro ⟨v, h⟩
    have := h.foldlM []
    rw [foldlM_nests_append] at this
    obtain ⟨bs, hbs, -⟩ := Option.bind_eq_some_iff.1 this
    exact ⟨bs, hbs⟩
  · rintro ⟨bs, hbs⟩
    refine ⟨bs.map fun b => op (.closing b), (wellNested_iff ?_).2 ?_⟩
    · intro l hl
      rcases List.mem_append.1 hl with hl | hl
      · exact hw l hl
      · obtain ⟨b, -, rfl⟩ := List.mem_map.1 hl
        rfl
    · rw [Closes, foldlM_nests_append, hbs]
      exact closes_closers bs

end Lexeme

namespace TokenGroup

/-- The brackets among tokens. -/
def word (ts : List Token) : List Lexeme := (ts.map (·.lexeme)).filter (·.isBracket)

def openBehind (bs : List Bracket) (ts : List Token) : Option (List Bracket) :=
  (ts.map (·.lexeme)).foldlM Lexeme.nests bs

variable {ts us : List Token} {bs : List Bracket}

lemma openBehind_cons (t : Token) :
    openBehind bs (t :: ts) = (t.lexeme.nests bs).bind fun cs => openBehind cs ts :=
  Lexeme.foldlM_nests_cons t.lexeme

lemma openBehind_append :
    openBehind bs (ts ++ us) = (openBehind bs ts).bind fun cs => openBehind cs us := by
  rw [openBehind, List.map_append]
  exact Lexeme.foldlM_nests_append _

lemma openBehind_opening {t : Token} {b : Bracket} (ht : t.lexeme = .op (.opening b)) :
    openBehind bs (t :: ts) = openBehind (b :: bs) ts := by
  rw [openBehind_cons, ht]
  rfl

lemma openBehind_closing {t : Token} {b : Bracket} (ht : t.lexeme = .op (.closing b)) :
    openBehind (b :: bs) (t :: ts) = openBehind bs ts := by
  rw [openBehind_cons, ht, Lexeme.nests_closing_self]
  rfl

lemma openBehind_other {t : Token} (ho : ∀ b, t.lexeme ≠ .op (.opening b))
    (hc : ∀ b, t.lexeme ≠ .op (.closing b)) : openBehind bs (t :: ts) = openBehind bs ts := by
  rw [openBehind_cons, Lexeme.nests_of_ne ho hc]
  rfl

lemma foldlM_word : (word ts).foldlM Lexeme.nests bs = openBehind bs ts := by
  induction ts generalizing bs with
  | nil => rfl
  | cons t ts ih =>
    rw [openBehind_cons, word, List.map_cons]
    cases ht : t.lexeme.isBracket with
    | true =>
      rw [List.filter_cons_of_pos (by simpa using ht), Lexeme.foldlM_nests_cons]
      exact congrArg _ (funext fun cs => ih)
    | false =>
      rw [List.filter_cons_of_neg (by simp [ht]), Lexeme.nests_of_not_isBracket ht]
      exact ih

lemma isBracket_of_mem_word : ∀ l ∈ word ts, l.isBracket = true := by
  simp [word]

lemma wellNested_word_iff : Lexeme.WellNested (word ts) ↔ openBehind [] ts = some [] := by
  rw [Lexeme.wellNested_iff isBracket_of_mem_word, Closes, foldlM_word]

lemma extendable_word_iff : Lexeme.Extendable (word ts) ↔ ∃ bs, openBehind [] ts = some bs := by
  rw [Lexeme.extendable_iff isBracket_of_mem_word, foldlM_word]

lemma nest_unexpected {frames : List Frame} {here : List TokenGroup} {b : Bracket} {t : Token}
    (h : nest frames here ts = .error (.unexpected b t)) :
    ∃ before after bs, ts = before ++ t :: after ∧ t.lexeme = .op (.closing b) ∧
      openBehind (frames.map (·.bracket)) before = some bs ∧ t.lexeme.nests bs = none := by
  induction frames, here, ts using nest.induct with
  | case1 | case2 => simp [nest] at h
  | case3 frames here t' ts b' hb ih =>
    simp only [nest, hb] at h
    obtain ⟨before, after, bs, rfl, ht, hrun, hbs⟩ := ih h
    exact ⟨t' :: before, after, bs, rfl, ht, (openBehind_opening hb).trans hrun, hbs⟩
  | case4 here t' ts f outer hb ih =>
    simp only [nest, hb, if_true] at h
    obtain ⟨before, after, bs, rfl, ht, hrun, hbs⟩ := ih h
    exact ⟨t' :: before, after, bs, rfl, ht, (openBehind_closing hb).trans hrun, hbs⟩
  | case5 here t' ts b' hb f outer hne =>
    simp only [nest, hb, hne, if_false] at h
    cases h
    exact ⟨[], ts, _, rfl, hb, rfl, by simp [hb, Lexeme.nests, hne]⟩
  | case6 here t' ts b' hb =>
    simp only [nest, hb] at h
    cases h
    exact ⟨[], ts, _, rfl, hb, rfl, by simp [hb, Lexeme.nests]⟩
  | case7 frames here t' ts ho hc ih =>
    rw [nest_leaf ho hc] at h
    obtain ⟨before, after, bs, rfl, ht, hrun, hbs⟩ := ih h
    exact ⟨t' :: before, after, bs, rfl, ht, (openBehind_other ho hc).trans hrun, hbs⟩

lemma nest_unclosed {frames : List Frame} {here : List TokenGroup} {b : Bracket} {t : Token}
    (h : nest frames here ts = .error (.unclosed b t)) :
    (∃ inner f outer, frames = inner ++ f :: outer ∧ f.bracket = b ∧ f.opener = t ∧
      openBehind (inner.map (·.bracket)) ts = some []) ∨
    ∃ before after bs, ts = before ++ t :: after ∧ t.lexeme = .op (.opening b) ∧
      openBehind (frames.map (·.bracket)) before = some bs ∧ openBehind [] after = some [] := by
  induction frames, here, ts using nest.induct with
  | case1 => simp [nest] at h
  | case2 f frames here =>
    simp only [nest] at h
    cases h
    exact .inl ⟨[], f, frames, rfl, rfl, rfl, rfl⟩
  | case3 frames here t' ts b' hb ih =>
    simp only [nest, hb] at h
    rcases ih h with ⟨inner, f, outer, hframes, hfb, hft, hrun⟩ | ⟨before, after, bs, rfl, ht, hrun, ha⟩
    · cases inner with
      | nil =>
        obtain ⟨rfl, rfl⟩ := List.cons.inj hframes
        subst hfb hft
        exact .inr ⟨[], ts, _, rfl, hb, rfl, hrun⟩
      | cons g inner =>
        obtain ⟨rfl, rfl⟩ := List.cons.inj hframes
        exact .inl ⟨inner, f, outer, rfl, hfb, hft, (openBehind_opening hb).trans hrun⟩
    · exact .inr ⟨t' :: before, after, bs, rfl, ht, (openBehind_opening hb).trans hrun, ha⟩
  | case4 here t' ts f outer hb ih =>
    simp only [nest, hb, if_true] at h
    rcases ih h with ⟨inner, g, rest, rfl, hfb, hft, hrun⟩ | ⟨before, after, bs, rfl, ht, hrun, ha⟩
    · exact .inl ⟨f :: inner, g, rest, rfl, hfb, hft, (openBehind_closing hb).trans hrun⟩
    · exact .inr ⟨t' :: before, after, bs, rfl, ht, (openBehind_closing hb).trans hrun, ha⟩
  | case5 here t' ts b' hb f outer hne => simp [nest, hb, hne] at h
  | case6 here t' ts b' hb => simp [nest, hb] at h
  | case7 frames here t' ts ho hc ih =>
    rw [nest_leaf ho hc] at h
    rcases ih h with ⟨inner, f, outer, hframes, hfb, hft, hrun⟩ | ⟨before, after, bs, rfl, ht, hrun, ha⟩
    · exact .inl ⟨inner, f, outer, hframes, hfb, hft, (openBehind_other ho hc).trans hrun⟩
    · exact .inr ⟨t' :: before, after, bs, rfl, ht, (openBehind_other ho hc).trans hrun, ha⟩

def Apart (p q : Nat × Nat) : Prop := p.2 < q.1 ∨ p.1 < q.1 ∧ q.2 < p.2

structure Spread (table : List (Nat × Nat)) (ts : List Token) (k : Nat) : Prop where
  bounds : ∀ p ∈ table, k ≤ p.1 ∧ p.1 < p.2 ∧ p.2 < k + ts.length
  apart : table.Pairwise Apart
  partners : ∀ p ∈ table, ∃ b i j, p = (k + i, k + j) ∧ Partners ts b i j

namespace Spread

variable {table table' : List (Nat × Nat)} {k : Nat}

lemma nil : Spread [] ts k := ⟨by simp, .nil, by simp⟩

lemma append (h : Spread table ts k) (h' : Spread table' us (k + ts.length)) :
    Spread (table ++ table') (ts ++ us) k where
  bounds p hp := by
    rw [List.length_append]
    rcases List.mem_append.1 hp with hp | hp
    · have := h.bounds p hp
      omega
    · have := h'.bounds p hp
      omega
  apart := by
    refine List.pairwise_append.2 ⟨h.apart, h'.apart, fun p hp q hq => .inl ?_⟩
    have := h.bounds p hp
    have := h'.bounds q hq
    omega
  partners p hp := by
    rcases List.mem_append.1 hp with hp | hp
    · obtain ⟨b, i, j, he, hij⟩ := h.partners p hp
      exact ⟨b, i, j, he, by simpa using hij.between [] us⟩
    · obtain ⟨b, i, j, rfl, hij⟩ := h'.partners p hp
      exact ⟨b, ts.length + i, ts.length + j, by simp [Nat.add_assoc],
        by simpa using hij.between ts []⟩

lemma wrap {b : Bracket} {o c : Token} (h : Spread table ts (k + 1)) (ho : o.lexeme = .op (.opening b))
    (hc : c.lexeme = .op (.closing b)) :
    Spread ((k, k + ts.length + 1) :: table) (o :: (ts ++ [c])) k where
  bounds := by
    simp only [List.length_cons, List.length_append, List.length_nil]
    refine List.forall_mem_cons.2 ⟨by omega, fun p hp => ?_⟩
    have := h.bounds p hp
    omega
  apart := by
    refine List.pairwise_cons.2 ⟨fun p hp => .inr ?_, h.apart⟩
    have := h.bounds p hp
    omega
  partners := by
    refine List.forall_mem_cons.2 ⟨⟨b, 0, ts.length + 1, rfl, ⟨o, rfl, ho⟩, c, by simp, hc⟩, ?_⟩
    intro p hp
    obtain ⟨b, i, j, rfl, hij⟩ := h.partners p hp
    exact ⟨b, 1 + i, 1 + j, by simp [Nat.add_assoc], hij.between [o] [c]⟩

lemma apart_of_ne (h : Spread table ts k) {p q : Nat × Nat} (hp : p ∈ table) (hq : q ∈ table)
    (hne : p ≠ q) : Apart p q ∨ Apart q p := by
  have hpair : table.Pairwise fun p q => Apart p q ∨ Apart q p := h.apart.imp .inl
  have : Std.Symm fun p q => Apart p q ∨ Apart q p := ⟨fun _ _ => Or.symm⟩
  exact hpair.forall hp hq hne

lemma eq_of_shared (h : Spread table ts k) {p q : Nat × Nat} (hp : p ∈ table) (hq : q ∈ table)
    (hs : p.1 = q.1 ∨ p.1 = q.2 ∨ p.2 = q.1 ∨ p.2 = q.2) : p = q := by
  by_contra hne
  have := h.bounds p hp
  have := h.bounds q hq
  rcases h.apart_of_ne hp hq hne with (hlt | ⟨hlt, hlt'⟩) | (hlt | ⟨hlt, hlt'⟩) <;> omega

end Spread

mutual

lemma spread_pairsIn {g : TokenGroup} (h : g.Matched) (k : Nat) : Spread (g.pairsIn k) g.spelled k := by
  match g, h with
  | .leaf t, _ =>
    rw [pairsIn]
    exact .nil
  | .pair b o inner c, .pair ho hc hin =>
    rw [pairsIn_pair, spelled_pair, ← length_tokens]
    exact (spread_pairs hin (k + 1)).wrap ho hc

lemma spread_pairs {gs : List TokenGroup} (h : ∀ g ∈ gs, g.Matched) (k : Nat) :
    Spread (pairs k gs) (tokens gs) k := by
  match gs with
  | [] =>
    rw [pairs]
    exact .nil
  | g :: gs =>
    obtain ⟨hg, hgs⟩ := List.forall_mem_cons.1 h
    rw [pairs_cons, tokens_cons, ← length_spelled]
    exact (spread_pairsIn hg k).append (spread_pairs hgs _)

end

end TokenGroup

namespace TokenStream

open TokenGroup Lexeme

/-- The position of the bracket that belongs to the one at a position. -/
def partner? (s : TokenStream) (i : Nat) : Option Nat :=
  s.pairs.findSome? fun p => if p.1 = i then some p.2 else if p.2 = i then some p.1 else none

variable {src : Source} {s : TokenStream} {items : List Item}

lemma spread (h : ofSource src = .ok s) : Spread s.pairs s.tokens 0 := by
  obtain ⟨-, -, -, -, -, hgroups⟩ := of_ofSource h
  obtain ⟨ht, hm⟩ := tokens_of_ofTokens hgroups
  rw [← ht]
  exact spread_pairs hm 0

lemma partner?_eq_some_iff (h : ofSource src = .ok s) {i j : Nat} :
    s.partner? i = some j ↔ (i, j) ∈ s.pairs ∨ (j, i) ∈ s.pairs := by
  have hs := spread h
  have hfind {i j : Nat} (hj : s.partner? i = some j) : (i, j) ∈ s.pairs ∨ (j, i) ∈ s.pairs := by
    obtain ⟨p, hp, he⟩ := List.exists_of_findSome?_eq_some hj
    split at he
    · next hi =>
      obtain rfl := Option.some.inj he
      exact .inl (hi ▸ hp)
    · split at he
      · next hi =>
        obtain rfl := Option.some.inj he
        exact .inr (hi ▸ hp)
      · cases he
  refine ⟨hfind, fun hij => ?_⟩
  obtain ⟨k, hk⟩ : ∃ k, s.partner? i = some k := by
    rw [← Option.isSome_iff_exists, partner?, List.findSome?_isSome_iff]
    rcases hij with hij | hij
    · exact ⟨_, hij, by simp⟩
    · exact ⟨_, hij, by split <;> simp⟩
  have hjk : j = k := by
    rcases hij, hfind hk with ⟨hij | hij, hik | hik⟩
    · exact (Prod.mk.inj (hs.eq_of_shared hij hik (by simp))).2
    · have := Prod.mk.inj (hs.eq_of_shared hij hik (by simp))
      omega
    · have := Prod.mk.inj (hs.eq_of_shared hij hik (by simp))
      omega
    · exact (Prod.mk.inj (hs.eq_of_shared hij hik (by simp))).1
  rw [hk, hjk]

/-- The table of partners of a source: it undoes itself, holds the brackets and no other token, pairs
an opening bracket with a closing one of its kind behind it, and pairs do not cross. -/
structure Pairing (s : TokenStream) : Prop where
  isSome_iff : ∀ i, (s.partner? i).isSome = true ↔
    ∃ t, s.tokens[i]? = some t ∧ t.lexeme.isBracket = true
  symm : ∀ i j, s.partner? i = some j → s.partner? j = some i
  opening : ∀ i t b, s.tokens[i]? = some t → t.lexeme = .op (.opening b) →
    ∃ j c, s.partner? i = some j ∧ i < j ∧ s.tokens[j]? = some c ∧ c.lexeme = .op (.closing b)
  apart : ∀ i j k l, s.partner? i = some j → i < j → s.partner? k = some l → k < l →
    i = k ∧ j = l ∨ j < k ∨ l < i ∨ i < k ∧ l < j ∨ k < i ∧ j < l

lemma mem_pairs_of_partner? (h : ofSource src = .ok s) {i j : Nat} (hj : s.partner? i = some j)
    (hlt : i < j) : (i, j) ∈ s.pairs := by
  refine ((partner?_eq_some_iff h).1 hj).resolve_right fun hji => ?_
  have := (spread h).bounds _ hji
  omega

lemma pairing (h : ofSource src = .ok s) : s.Pairing := by
  have hs := spread h
  have hpaired {i : Nat} {t : Token} (ht : s.tokens[i]? = some t) :
      Paired s.pairs s.tokens 0 i t := by
    obtain ⟨-, -, -, -, -, hgroups⟩ := of_ofSource h
    obtain ⟨htokens, hm⟩ := tokens_of_ofTokens hgroups
    rw [← htokens] at ht ⊢
    exact paired hm ht 0
  constructor
  · intro i
    rw [Option.isSome_iff_exists]
    constructor
    · rintro ⟨j, hj⟩
      rcases (partner?_eq_some_iff h).1 hj with hij | hij
      · obtain ⟨b, i', j', he, ⟨o, ho, hlo⟩, -⟩ := hs.partners _ hij
        obtain ⟨rfl, rfl⟩ := Prod.mk.inj he
        exact ⟨o, by simpa using ho, by rw [hlo]; rfl⟩
      · obtain ⟨b, i', j', he, -, c, hc, hlc⟩ := hs.partners _ hij
        obtain ⟨rfl, rfl⟩ := Prod.mk.inj he
        exact ⟨c, by simpa using hc, by rw [hlc]; rfl⟩
    · rintro ⟨t, ht, hb⟩
      obtain ⟨b, hl | hl⟩ := exists_of_isBracket hb
      · obtain ⟨j, hj, -⟩ := (hpaired ht).opening b hl
        exact ⟨j, (partner?_eq_some_iff h).2 (.inl (by simpa using hj))⟩
      · obtain ⟨j, hj, -⟩ := (hpaired ht).closing b hl
        exact ⟨j, (partner?_eq_some_iff h).2 (.inr (by simpa using hj))⟩
  · intro i j hj
    exact (partner?_eq_some_iff h).2 ((partner?_eq_some_iff h).1 hj).symm
  · intro i t b ht hl
    obtain ⟨j, hj, -, c, hc, hlc⟩ := (hpaired ht).opening b hl
    rw [Nat.zero_add, Nat.zero_add] at hj
    exact ⟨j, c, (partner?_eq_some_iff h).2 (.inl hj), (hs.bounds _ hj).2.1, hc, hlc⟩
  · intro i j k l hj hij hl hkl
    have hp := mem_pairs_of_partner? h hj hij
    have hq := mem_pairs_of_partner? h hl hkl
    by_cases he : (i, j) = (k, l)
    · exact .inl (Prod.mk.inj he)
    · rcases hs.apart_of_ne hp hq he with (hlt | hin) | (hlt | hin)
      · exact .inr (.inl hlt)
      · exact .inr (.inr (.inr (.inl hin)))
      · exact .inr (.inr (.inl hlt))
      · exact .inr (.inr (.inr (.inr hin)))

/-- Why a source whose items can be read is refused: at the first closing bracket behind which nothing
makes the brackets well-nested, or else at the innermost bracket that is open at the end. -/
inductive Refuses (ts : List Token) : Issue → Prop
  | unexpected {before after : List Token} {t : Token} {b : Bracket} (h : ts = before ++ t :: after)
      (ht : t.lexeme = .op (.closing b)) (hbefore : Extendable (word before))
      (hstuck : ¬Extendable (word (before ++ [t]))) : Refuses ts ⟨.unexpectedBracket b, t.start⟩
  | unclosed {before after : List Token} {t : Token} {b : Bracket} (h : ts = before ++ t :: after)
      (ht : t.lexeme = .op (.opening b)) (hall : Extendable (word ts))
      (hafter : WellNested (word after)) : Refuses ts ⟨.unclosedBracket b, t.start⟩

lemma refuses_of_nest {ts : List Token} {e : TokenGroup.Failure} (h : ofTokens ts = .error e) :
    Refuses ts e.issue := by
  cases e with
  | unexpected b t =>
    obtain ⟨before, after, bs, rfl, ht, hrun, hn⟩ := nest_unexpected h
    refine .unexpected rfl ht (extendable_word_iff.2 ⟨bs, hrun⟩) fun hx => ?_
    obtain ⟨cs, hcs⟩ := extendable_word_iff.1 hx
    have hrun : openBehind [] before = some bs := hrun
    rw [openBehind_append, hrun, Option.bind_some, openBehind_cons, hn] at hcs
    cases hcs
  | unclosed b t =>
    rcases nest_unclosed h with ⟨inner, f, outer, hframes, -⟩ | ⟨before, after, bs, rfl, ht, hrun, ha⟩
    · simp at hframes
    · have hrun : openBehind [] before = some bs := hrun
      have hafter := wellNested_word_iff.2 ha
      refine .unclosed rfl ht (extendable_word_iff.2 ⟨b :: bs, ?_⟩) hafter
      rw [openBehind_append, hrun, Option.bind_some, openBehind_opening ht, ← foldlM_word]
      exact hafter.foldlM _

/-- A source whose items can be read is refused exactly if its brackets are not well-nested, and then
for the bracket at fault; otherwise every bracket has its partner. -/
theorem brackets_exact (h : src.items = .ok items) :
    ((∃ e, ofSource src = .error e) ↔ ¬WellNested (word (items.filterMap Item.token?))) ∧
    (∀ e, ofSource src = .error e → Refuses (items.filterMap Item.token?) e) ∧
    ∀ s, ofSource src = .ok s → s.tokens = items.filterMap Item.token? ∧ s.Pairing := by
  have hok : (∃ gs, ofTokens (items.filterMap Item.token?) = .ok gs) ↔
      WellNested (word (items.filterMap Item.token?)) := by
    rw [wellNested_word_iff]
    exact ofTokens_ok_iff
  refine ⟨?_, fun e he => ?_, fun s hs => ?_⟩
  · rw [← hok]
    simp only [ofSource, h]
    split
    · next e he => simp [he]
    · next gs hg => simp [hg]
  · simp only [ofSource, h] at he
    split at he
    · next e' he' =>
      obtain rfl := Except.error.inj he
      exact refuses_of_nest he'
    · cases he
  · obtain ⟨its, hits, -, ht, -⟩ := of_ofSource hs
    obtain rfl := Except.ok.inj (h.symm.trans hits)
    exact ⟨ht, pairing hs⟩

end TokenStream

def elementSource : Source := .ofString "p.go" "f(a[0])"

def crossedSource : Source := .ofString "p.go" "f(a[0)]"

set_option maxRecDepth 100000 in
open TokenStream TokenGroup Lexeme in
theorem brackets_exact_crossedSource :
    (∃ items s, elementSource.items = .ok items ∧ ofSource elementSource = .ok s ∧
      WellNested (word (items.filterMap Item.token?)) ∧ s.Pairing ∧ s.partner? 1 = some 6 ∧
      s.partner? 3 = some 5) ∧
    ∃ items, crossedSource.items = .ok items ∧ ¬WellNested (word (items.filterMap Item.token?)) ∧
      Refuses (items.filterMap Item.token?) ⟨.unexpectedBracket .round, 5⟩ := by
  have hpartners : (ofSource elementSource).toOption.map (fun s => (s.partner? 1, s.partner? 3)) =
      some (some 6, some 5) := by
    decide +kernel
  have hitems : crossedSource.items.toOption.isSome = true := by
    decide +kernel
  have hissue : ((ofSource crossedSource).map fun _ => ()) =
      .error ⟨.unexpectedBracket .round, 5⟩ := by
    decide +kernel
  constructor
  · obtain ⟨s, hs, he⟩ := Option.map_eq_some_iff.1 hpartners
    have hok := Except.toOption_eq_some.1 hs
    obtain ⟨items, hitems, -⟩ := of_ofSource hok
    obtain ⟨hiff, -, hpairing⟩ := brackets_exact hitems
    obtain ⟨h₁, h₃⟩ := Prod.mk.inj he
    refine ⟨items, s, hitems, hok, ?_, (hpairing s hok).2, h₁, h₃⟩
    by_contra hw
    obtain ⟨e, he⟩ := hiff.2 hw
    rw [hok] at he
    cases he
  · obtain ⟨items, hi⟩ := Option.isSome_iff_exists.1 hitems
    have hok := Except.toOption_eq_some.1 hi
    have he : ofSource crossedSource = .error ⟨.unexpectedBracket .round, 5⟩ := by
      cases h : ofSource crossedSource with
      | error e => simpa [h, Except.map] using hissue
      | ok s => simp [h, Except.map] at hissue
    obtain ⟨hiff, hrefuses, -⟩ := brackets_exact hok
    exact ⟨items, hok, hiff.1 ⟨_, he⟩, hrefuses _ he⟩

end ParallelTests
