import ParallelTests.Proofs.Recast.Twins
import ParallelTests.Parser.Grammar

/-!
Taking groups apart on both sides. What the parser looks for in the groups of a source it finds at the
same place in those of the copy.
-/

namespace ParallelTests

open TokenGroup

section

variable {α β γ δ : Type} {R : α → β → Prop} {S : γ → δ → Prop} {a : Option α} {b : Option β}

lemma exists_of_rel (h : Option.Rel R a b) {x : α} (ha : a = some x) : ∃ y, b = some y ∧ R x y := by
  cases h with
  | none => cases ha
  | some h =>
    cases ha
    exact ⟨_, rfl, h⟩

lemma eq_none_of_rel (h : Option.Rel R a b) (ha : a = none) : b = none := by
  cases h with
  | none => rfl
  | some => cases ha

lemma isSome_of_rel (h : Option.Rel R a b) : b.isSome = a.isSome := by
  cases h <;> rfl

lemma rel_map {g : α → γ} {g' : β → δ} (h : Option.Rel R a b) (hR : ∀ x y, R x y → S (g x) (g' y)) :
    Option.Rel S (a.map g) (b.map g') := by
  cases h with
  | none => exact .none
  | some h => exact .some (hR _ _ h)

end

inductive TokenGroup.Like : TokenGroup → TokenGroup → Prop
  | leaf {t t' : Token} (he : t'.lexeme = t.lexeme) : Like (.leaf t) (.leaf t')
  | pair {k : Bracket} {o o' c c' : Token} {inner inner' : List TokenGroup}
      (ho : o'.lexeme = o.lexeme) (hc : c'.lexeme = c.lexeme) :
      Like (.pair k o inner c) (.pair k o' inner' c')

def Blind (p : TokenGroup → Bool) : Prop := ∀ g g', TokenGroup.Like g g' → p g' = p g

namespace TokenGroup.Like

variable {g g' : TokenGroup}

lemma first (h : Like g g') : g'.first.lexeme = g.first.lexeme := by
  cases h with
  | leaf he => exact he
  | pair ho _ => exact ho

lemma last (h : Like g g') : g'.last.lexeme = g.last.lexeme := by
  cases h with
  | leaf he => exact he
  | pair _ hc => exact hc

end TokenGroup.Like

lemma blind_isSemicolon : Blind isSemicolon := by
  rintro _ _ (he | _)
  · simp [isSemicolon, Token.isSemicolon, he]
  · rfl

lemma blind_isOp (o : Operator) : Blind (isOp o) := by
  rintro _ _ (he | _)
  · simp [isOp, Token.isOp, he]
  · rfl

lemma blind_isKeyword (k : Keyword) : Blind (isKeyword k) := by
  rintro _ _ (he | _)
  · simp [isKeyword, Token.isKeyword, he]
  · rfl

lemma blind_isTurn : Blind Parser.isTurn := by
  rintro _ _ (he | _)
  · simp [Parser.isTurn, he]
  · rfl

lemma blind_isClause : Blind Parser.isClause := by
  rintro _ _ (he | _)
  · simp [Parser.isClause, Token.isKeyword, he]
  · rfl

variable {lost : Nat → Prop} {all all' : List Comment} {f : Bool} {x y z : Twin}
  {g g' : TokenGroup} {gs gs' hs hs' rest rest' : List TokenGroup} {t : Token}

namespace Twins

/-! ### One group at a time -/

lemma of_nil (h : Twins lost all all' f x [] gs' z) :
    z = x ∧ (gs' = [] ∨ f = true ∧ ∃ e : Token, e.lexeme = .semicolon false ∧ gs' = [.leaf e]) := by
  cases h with
  | nil => exact ⟨rfl, .inl rfl⟩
  | extra he => exact ⟨rfl, .inr ⟨rfl, _, he, rfl⟩⟩

lemma of_cons (h : Twins lost all all' f x (g :: gs) gs' z) : ∃ g' rest' y, gs' = g' :: rest' ∧
    g.Like g' ∧ Twins lost all all' false x [g] [g'] y ∧ Twins lost all all' f y gs rest' z := by
  cases h with
  | semicolon ht he h => exact ⟨_, _, _, rfl, .leaf he, .semicolon ht he .nil, h⟩
  | word hn h => exact ⟨_, _, _, rfl, .leaf hn.lexeme, .word hn .nil, h⟩
  | pair ho hi hc h => exact ⟨_, _, _, rfl, .pair ho.lexeme hc.lexeme, .pair ho hi hc .nil, h⟩

lemma of_leaf (h : Twins lost all all' f x (.leaf t :: gs) gs' z) : ∃ t' rest' y,
    gs' = .leaf t' :: rest' ∧ t'.lexeme = t.lexeme ∧
      Twins lost all all' false x [.leaf t] [.leaf t'] y ∧ Twins lost all all' f y gs rest' z := by
  cases h with
  | semicolon ht he h => exact ⟨_, _, _, rfl, he, .semicolon ht he .nil, h⟩
  | word hn h => exact ⟨_, _, _, rfl, hn.lexeme, .word hn .nil, h⟩

lemma of_pair {k : Bracket} {o c : Token} {inner : List TokenGroup}
    (h : Twins lost all all' f x (.pair k o inner c :: gs) gs' z) : ∃ o' inner' c' rest' y,
      gs' = .pair k o' inner' c' :: rest' ∧ x.Next lost all all' ⟨o, o'⟩ ∧
        Twins lost all all' (k = .curly) ⟨o, o'⟩ inner inner' y ∧ y.Next lost all all' ⟨c, c'⟩ ∧
          Twins lost all all' f ⟨c, c'⟩ gs rest' z := by
  cases h with
  | pair ho hi hc h => exact ⟨_, _, _, _, _, rfl, ho, hi, hc, h⟩

lemma next_first (h : Twins lost all all' f x (g :: gs) (g' :: gs') z) (hg : g.isSemicolon = false) :
    x.Next lost all all' ⟨g.first, g'.first⟩ := by
  cases h with
  | semicolon ht => simp [isSemicolon, ht] at hg
  | word hn => exact hn
  | pair ho => exact ho

lemma eq_last (h : Twins lost all all' false x [g] [g'] y) (hg : g.isSemicolon = false) :
    y = ⟨g.last, g'.last⟩ := by
  cases h with
  | semicolon ht => simp [isSemicolon, ht] at hg
  | word _ h => exact h.of_nil.1
  | pair _ _ _ h => exact h.of_nil.1

lemma like (h : Twins lost all all' f x (g :: gs) (g' :: gs') z) : g.Like g' := by
  obtain ⟨_, _, _, he, hl, -⟩ := h.of_cons
  cases he
  exact hl

lemma of_semicolon (h : Twins lost all all' f x (g :: gs) gs' z) (hg : g.isSemicolon = true) :
    ∃ g' rest', gs' = g' :: rest' ∧ g'.isSemicolon = true ∧ Twins lost all all' false x [g] [g'] x ∧
      Twins lost all all' f x gs rest' z := by
  cases h with
  | semicolon ht he h =>
    exact ⟨_, _, rfl, by simpa [isSemicolon, Token.isSemicolon, he] using ht, .semicolon ht he .nil, h⟩
  | word hn =>
    rw [isSemicolon, hn.word] at hg
    cases hg
  | pair => cases hg

@[elab_as_elim]
lemma ind {motive : ∀ x gs gs', Twins lost all all' f x gs gs' z → Prop} (nil : motive z [] [] .nil)
    (extra : ∀ (e : Token) (h : Twins lost all all' f z [] [.leaf e] z), f = true →
      e.lexeme = .semicolon false → motive z [] [.leaf e] h)
    (cons : ∀ {x y : Twin} {g g' : TokenGroup} {gs gs' : List TokenGroup}, g.Like g' →
      ∀ (hg : Twins lost all all' false x [g] [g'] y) (h : Twins lost all all' f y gs gs' z),
        motive y gs gs' h → motive x (g :: gs) (g' :: gs') (hg.append h))
    (h : Twins lost all all' f x gs gs' z) : motive x gs gs' h := by
  induction h with
  | nil => exact nil
  | extra he => exact extra _ (.extra he) rfl he
  | semicolon ht he h ih => exact cons (.leaf he) (.semicolon ht he .nil) h (ih nil extra cons)
  | word hn h ih => exact cons (.leaf hn.lexeme) (.word hn .nil) h (ih nil extra cons)
  | pair ho hi hc h _ ih =>
    exact cons (.pair ho.lexeme hc.lexeme) (.pair ho hi hc .nil) h (ih nil extra cons)

lemma of_append (h : Twins lost all all' f x (gs ++ hs) gs' z) : ∃ us us' y, gs' = us ++ us' ∧
    Twins lost all all' false x gs us y ∧ Twins lost all all' f y hs us' z := by
  induction gs generalizing x gs' with
  | nil => exact ⟨[], gs', x, rfl, .nil, h⟩
  | cons g gs ih =>
    obtain ⟨g', rest', w, rfl, -, hg, h⟩ := h.of_cons
    obtain ⟨us, us', y, rfl, hgs, h⟩ := ih h
    exact ⟨g' :: us, us', y, rfl, hg.append hgs, h⟩

lemma length_eq (h : Twins lost all all' false x gs gs' z) : gs'.length = gs.length := by
  induction h using ind with
  | nil => rfl
  | extra _ _ hf => cases hf
  | cons _ _ _ ih => simpa using ih

/-! ### Looking for a group -/

lemma cut {p : TokenGroup → Bool} (hp : Blind p) {k : Bool} (h : Twins lost all all' f x gs gs' z)
    (hk : f = true → k = true ∨ since p gs ≠ [] ∨
      ∀ e : Token, e.lexeme = .semicolon false → p (.leaf e) = true) :
    ∃ y, Twins lost all all' k x (upTo p gs) (upTo p gs') y ∧
      Twins lost all all' f y (since p gs) (since p gs') z := by
  induction h using ind with
  | nil => exact ⟨_, .nil, .nil⟩
  | extra e _ hf he =>
    subst hf
    cases hpe : p (.leaf e) with
    | true => exact ⟨_, by simpa [upTo, hpe] using .nil, by simpa [since, hpe] using .extra he⟩
    | false =>
      obtain rfl : k = true := by
        rcases hk rfl with hk | hk | hk
        · exact hk
        · exact absurd rfl hk
        · exact absurd (hk e he) (by simp [hpe])
      exact ⟨_, by simpa [upTo, hpe] using .extra he, by simpa [since, hpe] using .nil⟩
  | @cons x y g g' gs gs' hl hg h ih =>
    have hpg := hp g g' hl
    cases hpe : p g with
    | true =>
      refine ⟨x, ?_, ?_⟩
      · simpa [upTo, hpg, hpe] using .nil
      · simpa [since, hpg, hpe] using hg.append h
    | false =>
      have hsince : since p (g :: gs) = since p gs := by simp [since, hpe]
      rw [hsince] at hk
      obtain ⟨w, hup, hsi⟩ := ih hk
      refine ⟨w, ?_, ?_⟩
      · simpa [upTo, hpg, hpe] using hg.append hup
      · simpa [since, hpg, hpe] using hsi

lemma cut_semicolon (h : Twins lost all all' f x gs gs' z) :
    ∃ y, Twins lost all all' false x (upTo isSemicolon gs) (upTo isSemicolon gs') y ∧
      Twins lost all all' f y (since isSemicolon gs) (since isSemicolon gs') z :=
  h.cut blind_isSemicolon fun _ => .inr (.inr fun e he => by simp [isSemicolon, Token.isSemicolon, he])

lemma cut_strict {p : TokenGroup → Bool} (hp : Blind p) (h : Twins lost all all' false x gs gs' z) :
    ∃ y, Twins lost all all' false x (upTo p gs) (upTo p gs') y ∧
      Twins lost all all' false y (since p gs) (since p gs') z :=
  h.cut hp (by rintro ⟨⟩)

lemma tail (h : Twins lost all all' f x gs gs' z) (hne : f = true → gs ≠ []) :
    ∃ y, Twins lost all all' f y gs.tail gs'.tail z := by
  cases gs with
  | nil =>
    obtain ⟨rfl, rfl | ⟨rfl, -⟩⟩ := h.of_nil
    · exact ⟨_, .nil⟩
    · exact absurd rfl (hne rfl)
  | cons g gs =>
    obtain ⟨_, _, y, rfl, -, -, h⟩ := h.of_cons
    exact ⟨y, h⟩

lemma dropLast (h : Twins lost all all' false x gs gs' z) :
    ∃ y, Twins lost all all' false x gs.dropLast gs'.dropLast y ∧
      Option.Rel Like gs.getLast? gs'.getLast? := by
  rcases List.eq_nil_or_concat gs with rfl | ⟨ds, g, rfl⟩
  · obtain ⟨rfl, rfl | ⟨⟨⟩, -⟩⟩ := h.of_nil
    exact ⟨_, .nil, .none⟩
  · rw [List.concat_eq_append] at h ⊢
    obtain ⟨us, us', y, rfl, hds, h⟩ := h.of_append
    obtain ⟨g', rest', w, rfl, hl, -, h⟩ := h.of_cons
    obtain ⟨-, rfl | ⟨⟨⟩, -⟩⟩ := h.of_nil
    refine ⟨y, by simpa using hds, ?_⟩
    rw [List.getLast?_concat, List.getLast?_concat]
    exact .some hl

lemma runs {p : TokenGroup → Bool} (hp : Blind p) (h : Twins lost all all' false x gs gs' z) :
    ∃ r rs r' rs', Stretch.runs p gs = r :: rs ∧ Stretch.runs p gs' = r' :: rs' ∧
      (∃ y, Twins lost all all' false x r r' y) ∧
        List.Forall₂ (fun r r' => ∃ u w, Twins lost all all' false u r r' w) rs rs' := by
  induction h using ind with
  | nil => exact ⟨_, _, _, _, rfl, rfl, ⟨_, .nil⟩, .nil⟩
  | extra _ _ hf => cases hf
  | @cons x y g g' gs gs' hl hg _ ih =>
    obtain ⟨r, rs, r', rs', hr, hr', ⟨w, hrr⟩, hrs⟩ := ih
    have hpg := hp g g' hl
    cases hpe : p g with
    | true =>
      exact ⟨[], r :: rs, [], r' :: rs', by simp [Stretch.runs, hr, hpe],
        by simp [Stretch.runs, hr', hpg, hpe], ⟨x, .nil⟩, .cons ⟨y, w, hrr⟩ hrs⟩
    | false =>
      exact ⟨g :: r, rs, g' :: r', rs', by simp [Stretch.runs, hr, hpe],
        by simp [Stretch.runs, hr', hpg, hpe], ⟨w, hg.append hrr⟩, hrs⟩

lemma split {p : TokenGroup → Bool} (hp : Blind p) (h : Twins lost all all' false x gs gs' z) :
    List.Forall₂ (fun st st' : Stretch => ∃ u w, Twins lost all all' false u st.toList st'.toList w)
      (Stretch.split p gs) (Stretch.split p gs') := by
  obtain ⟨r, rs, r', rs', hr, hr', ⟨y, hrr⟩, hrs⟩ := h.runs hp
  rw [Stretch.split, Stretch.split, hr, hr']
  have hall := List.Forall₂.cons (R := fun r r' => ∃ u w, Twins lost all all' false u r r' w) ⟨x, y, hrr⟩ hrs
  generalize r :: rs = rs at hall
  generalize r' :: rs' = rs' at hall
  induction hall with
  | nil => exact .nil
  | @cons r r' _ _ hr _ ih =>
    obtain ⟨u, w, hr⟩ := hr
    cases r with
    | nil =>
      obtain ⟨-, rfl | ⟨⟨⟩, -⟩⟩ := hr.of_nil
      exact ih
    | cons g gs =>
      obtain ⟨g', rest', v, rfl, -⟩ := hr.of_cons
      exact .cons ⟨u, w, hr⟩ ih

lemma mem_tokens (h : Twins lost all all' f x gs gs' z) : z = x ∨ z.source ∈ tokens gs := by
  induction h with
  | nil | extra => exact .inl rfl
  | semicolon _ _ _ ih => exact ih.imp_right fun h => by simp [h]
  | word _ _ ih => exact .inr (ih.elim (fun h => by simp [h]) fun h => by simp [h])
  | pair _ _ _ _ _ ih => exact .inr (ih.elim (fun h => by simp [h]) fun h => by simp [h])

lemma mono (h : Twins lost all all' f x gs gs' z) {a b : Nat} (ha : a ≤ x.source.stop)
    (hb : ∀ t ∈ tokens gs, a ≤ t.stop ∧ t.start ≤ b) (hl : ∀ i, a ≤ i → i < b → ¬lost i) :
    Twins (fun _ => False) all all' f x gs gs' z := by
  have hnext {x y : Twin} (hn : x.Next lost all all' y) (hx : a ≤ x.source.stop)
      (hy : y.source.start ≤ b) : x.Next (fun _ => False) all all' y := by
    refine ⟨hn.word, hn.lexeme, fun _ => hn.meets.notes fun c hc => ?_, hn.meets.touch⟩
    have hbounds : x.source.stop ≤ c.start ∧ c.start < y.source.start := by
      simpa using (List.mem_filter.1 hc).2
    exact hl _ (by omega) (by omega)
  induction h with
  | nil => exact .nil
  | extra he => exact .extra he
  | semicolon ht he _ ih => exact .semicolon ht he (ih ha fun t ht => hb t (by simp [ht]))
  | @word _ _ _ t _ _ _ hn _ ih =>
    have ht := hb t (by simp)
    exact .word (hnext hn ha ht.2) (ih ht.1 fun t ht => hb t (by simp [ht]))
  | @pair _ _ y _ _ o _ c _ _ _ _ _ hno hi hnc _ ihi ih =>
    have ho := hb o (by simp)
    have hc := hb c (by simp)
    have hin := ihi ho.1 fun t ht => hb t (by simp [ht])
    have hy : a ≤ y.source.stop := by
      rcases hi.mem_tokens with rfl | hy
      · exact ho.1
      · exact (hb _ (by simp [hy])).1
    exact .pair (hnext hno ha ho.2) hin (hnext hnc hy hc.2) (ih hc.1 fun t ht => hb t (by simp [ht]))

end Twins

/-! ### What is left behind some groups -/

def Leaves (lost : Nat → Prop) (all all' : List Comment) (f : Bool) (x : Twin)
    (gs gs' : List TokenGroup) (z : Twin) (rest rest' : List TokenGroup) : Prop :=
  ∃ before before' y, gs = before ++ rest ∧ gs' = before' ++ rest' ∧
    Twins lost all all' false x before before' y ∧ Twins lost all all' f y rest rest' z

namespace Leaves

lemma refl (h : Twins lost all all' f x gs gs' z) : Leaves lost all all' f x gs gs' z gs gs' :=
  ⟨[], [], x, rfl, rfl, .nil, h⟩

lemma cons (hg : Twins lost all all' false x [g] [g'] y)
    (h : Leaves lost all all' f y gs gs' z rest rest') :
    Leaves lost all all' f x (g :: gs) (g' :: gs') z rest rest' := by
  obtain ⟨before, before', w, rfl, rfl, hb, h⟩ := h
  exact ⟨g :: before, g' :: before', w, rfl, rfl, hg.append hb, h⟩

lemma since (h : Twins lost all all' f x gs gs' z) :
    Leaves lost all all' f x gs gs' z (since isSemicolon gs) (since isSemicolon gs') := by
  obtain ⟨y, hup, hsi⟩ := h.cut_semicolon
  exact ⟨_, _, y, (upTo_append_since _ _).symm, (upTo_append_since _ _).symm, hup, hsi⟩

lemma further (h : Leaves lost all all' f x gs gs' z rest rest') :
    ∃ y, Twins lost all all' f y rest rest' z ∧ ∀ {more more'},
      Leaves lost all all' f y rest rest' z more more' →
        Leaves lost all all' f x gs gs' z more more' := by
  obtain ⟨before, before', y, rfl, rfl, hb, h⟩ := h
  refine ⟨y, h, fun ⟨mid, mid', w, he, he', hm, h⟩ => ?_⟩
  exact ⟨before ++ mid, before' ++ mid', w, by rw [he, List.append_assoc],
    by rw [he', List.append_assoc], hb.append hm, h⟩

end Leaves

def Passes (lost : Nat → Prop) (all all' : List Comment) (x : Twin) (gs gs' : List TokenGroup)
    (z : Twin) (rest rest' : List TokenGroup) : Prop :=
  ∃ before before' y, gs = before ++ rest ∧ gs' = before' ++ rest' ∧
    Twins lost all all' true x before before' y ∧ Twins lost all all' true y rest rest' z

namespace Passes

lemma refl (h : Twins lost all all' true x gs gs' z) : Passes lost all all' x gs gs' z gs gs' :=
  ⟨[], [], x, rfl, rfl, .nil, h⟩

lemma append (h : Twins lost all all' false x hs hs' y)
    (hp : Passes lost all all' y gs gs' z rest rest') :
    Passes lost all all' x (hs ++ gs) (hs' ++ gs') z rest rest' := by
  obtain ⟨before, before', w, rfl, rfl, hb, hr⟩ := hp
  exact ⟨hs ++ before, hs' ++ before', w, by simp, by simp, h.append hb, hr⟩

end Passes

def lastWord (gs : List TokenGroup) : Option Token :=
  (gs.filter (!isSemicolon ·)).getLast?.map TokenGroup.last

lemma lastWord_stretch {st : Stretch} (hl : (st.tail.getLastD st.head).isSemicolon = false)
    (hs : ∀ g ∈ gs, g.isSemicolon = true) : lastWord (st.toList ++ gs) = some st.last := by
  have hgs : gs.filter (!isSemicolon ·) = [] := List.filter_eq_nil_iff.2 fun g hg => by simp [hs g hg]
  have hlast : [st.tail.getLastD st.head].filter (!isSemicolon ·) = [st.tail.getLastD st.head] := by
    rw [List.filter_cons_of_pos (by rw [hl]; rfl), List.filter_nil]
  rw [lastWord, List.filter_append, hgs, List.append_nil, st.toList_eq_concat, List.filter_append, hlast,
    List.getLast?_concat]
  rfl

lemma lastWord_cons : lastWord (g :: gs) =
    if g.isSemicolon then lastWord gs else some ((lastWord gs).getD g.last) := by
  cases hg : g.isSemicolon with
  | true => simp [lastWord, hg]
  | false =>
    simp only [lastWord, List.filter_cons, hg, Bool.not_false, if_true, List.getLast?_cons]
    cases (gs.filter (!isSemicolon ·)).getLast? <;> rfl

namespace Twins

lemma eq_lastWord (h : Twins lost all all' f x gs gs' z) :
    z = ⟨(lastWord gs).getD x.source, (lastWord gs').getD x.copy⟩ := by
  induction h using ind with
  | nil => rfl
  | extra e _ _ he => simp [lastWord, isSemicolon, Token.isSemicolon, he]
  | @cons x y g g' gs gs' hl hg _ ih =>
    have hsame := blind_isSemicolon g g' hl
    cases hs : g.isSemicolon with
    | true =>
      obtain ⟨_, _, -, -, -, hrest⟩ := hg.of_semicolon hs
      obtain rfl := hrest.of_nil.1
      rw [lastWord_cons, lastWord_cons, hsame, hs, if_pos rfl, if_pos rfl, ih]
    | false =>
      obtain rfl := hg.eq_last hs
      rw [lastWord_cons, lastWord_cons, hsame, hs, if_neg (by simp), if_neg (by simp), ih]
      rfl

lemma signatureEnd (h : Twins lost all all' f x gs gs' z) {last last' : Token}
    (hl : last'.lexeme = last.lexeme) :
    (Parser.signatureEnd last' gs').1.lexeme = (Parser.signatureEnd last gs).1.lexeme ∧
      Leaves lost all all' f x gs gs' z (Parser.signatureEnd last gs).2
        (Parser.signatureEnd last' gs').2 := by
  induction h using ind generalizing last last' with
  | nil => exact ⟨hl, .refl .nil⟩
  | extra e h _ he =>
    have he' : Parser.signatureEnd last' [.leaf e] = (last', [.leaf e]) := by
      simp [Parser.signatureEnd, Token.isSemicolon, he]
    rw [he']
    exact ⟨hl, .refl h⟩
  | @cons x y g g' gs gs' hlike hg h ih =>
    have hall := hg.append h
    cases hlike with
    | @leaf t t' he =>
      have hstop : (t'.isSemicolon || t'.isOp .comma || t'.isOp .assign || t'.isOp .colon ||
          t'.isOp .define) = (t.isSemicolon || t.isOp .comma || t.isOp .assign || t.isOp .colon ||
            t.isOp .define) := by
        simp only [Token.isSemicolon, Token.isOp, he]
      rw [Parser.signatureEnd, Parser.signatureEnd, hstop]
      split
      · exact ⟨hl, .refl hall⟩
      · exact (ih he).imp_right (.cons hg)
    | @pair k o o' c c' inner inner' ho hc =>
      have htype : (last'.isKeyword .kwStruct || last'.isKeyword .kwInterface) =
          (last.isKeyword .kwStruct || last.isKeyword .kwInterface) := by
        simp only [Token.isKeyword, hl]
      cases k with
      | curly =>
        rw [Parser.signatureEnd, Parser.signatureEnd, htype]
        split
        · exact (ih hc).imp_right (.cons hg)
        · exact ⟨hl, .refl hall⟩
      | round | square =>
        rw [Parser.signatureEnd, Parser.signatureEnd]
        · exact (ih hc).imp_right (.cons hg)
        · rintro ⟨⟩
        · rintro ⟨⟩

end Twins

structure Bodies (lost : Nat → Prop) (all all' : List Comment) (f : Bool) (x : Twin)
    {gs gs' : List TokenGroup} (z : Twin) (b : Body gs) (b' : Body gs') (y : Twin) : Prop where
  before : Twins lost all all' false x b.before b'.before y
  body : Twins lost all all' false y [.pair .curly b.opener b.inner b.closer]
    [.pair .curly b'.opener b'.inner b'.closer] ⟨b.closer, b'.closer⟩
  after : Twins lost all all' f ⟨b.closer, b'.closer⟩ b.after b'.after z

namespace Bodies

variable {w : Twin}

lemma push {b : Body gs} {b' : Body gs'} (hg : Twins lost all all' false x [g] [g'] y)
    (h : Bodies lost all all' f y z b b' w) : Bodies lost all all' f x z (b.push g) (b'.push g') w :=
  ⟨hg.append h.before, h.body, h.after⟩

end Bodies

namespace Twins

lemma find {accept : Option Token → Bool} (h : Twins lost all all' f x gs gs' z)
    (hlike : ∀ t t' : Token, t'.lexeme = t.lexeme → accept (some t') = accept (some t))
    (hend : f = true → (∀ e : Token, e.lexeme = .semicolon false → accept (some e) = accept none) ∨
      Body.find Body.endsHere gs = none) :
    Option.Rel (fun b b' => ∃ y, Bodies lost all all' f x z b b' y) (Body.find accept gs)
      (Body.find accept gs') := by
  induction h using ind with
  | nil => exact .none
  | extra => exact .none
  | @cons x y g g' gs gs' hl hg h ih =>
    have hpush (hn : Body.find Body.endsHere (g :: gs) = none) : Body.find Body.endsHere gs = none := by
      cases g with
      | leaf t => simpa [Body.find] using hn
      | pair k o inner c =>
        cases k with
        | round | square => simpa [Body.find] using hn
        | curly =>
          rw [Body.find] at hn
          split at hn
          · cases hn
          · simpa using hn
    have ih := ih fun hf => (hend hf).imp_right hpush
    have hmap : Option.Rel (fun b b' => ∃ w, Bodies lost all all' f x z b b' w)
        ((Body.find accept gs).map (Body.push g)) ((Body.find accept gs').map (Body.push g')) :=
      rel_map ih fun b b' ⟨w, hb⟩ => ⟨w, hb.push hg⟩
    cases hl with
    | leaf => exact hmap
    | @pair k o o' c c' inner inner' ho hc =>
      cases k with
      | round | square => exact hmap
      | curly =>
        have haccept : accept (gs'.head?.map TokenGroup.first) = accept (gs.head?.map TokenGroup.first) := by
          cases gs with
          | nil =>
            obtain ⟨-, rfl | ⟨hf, e, he, rfl⟩⟩ := h.of_nil
            · rfl
            · exact ((hend hf).resolve_right fun hn => by simp [Body.find, Body.endsHere] at hn) e he
          | cons g gs =>
            obtain ⟨g', rest', _, rfl, hl, -⟩ := h.of_cons
            exact hlike _ _ hl.first
        obtain rfl := hg.eq_last rfl
        rw [Body.find, Body.find, haccept]
        split
        · exact .some ⟨x, .nil, hg, h⟩
        · exact hmap

lemma body (h : Twins lost all all' f x gs gs' z) {b : Body gs} (hb : Body.ofStatement gs = some b) :
    ∃ b' y, Body.ofStatement gs' = some b' ∧ Bodies lost all all' f x z b b' y := by
  have hhere := @find _ _ _ _ _ _ _ _ Body.endsHere h
    (fun t t' he => by simp [Body.endsHere, Token.isAutomatic, Token.isKeyword, he])
    fun _ => .inl fun e he => by simp [Body.endsHere, Token.isAutomatic, he]
  rw [Body.ofStatement] at hb ⊢
  cases hfind : Body.find Body.endsHere gs with
  | some c =>
    rw [hfind] at hb
    obtain rfl : c = b := Option.some.inj hb
    obtain ⟨b', hb', y, hr⟩ := exists_of_rel hhere hfind
    exact ⟨b', y, by rw [hb', Option.some_or], hr⟩
  | none =>
    rw [hfind, Option.none_or] at hb
    have hsemi := @find _ _ _ _ _ _ _ _ Body.endsAtSemicolon h
      (fun t t' he => by simp [Body.endsAtSemicolon, Token.isSemicolon, he]) fun _ => .inr hfind
    obtain ⟨b', hb', y, hr⟩ := exists_of_rel hsemi hb
    exact ⟨b', y, by rw [eq_none_of_rel hhere hfind, Option.none_or, hb'], hr⟩

end Twins

end ParallelTests
