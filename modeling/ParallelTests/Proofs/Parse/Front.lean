import ParallelTests.Proofs.Parse.Decl
import ParallelTests.Proofs.Parse.Total
import ParallelTests.Proofs.Scan.Position
import ParallelTests.Proofs.Scan.Strung

/-!
The front end is total. A text is read as a tree whose nodes have spans inside the text, or it is
refused at a place inside the text; what is looked up on the way is there.
-/

namespace ParallelTests

open TokenGroup

variable {n : Nat}

namespace TokenGroup

lemma pairs_cons (k : Nat) (g : TokenGroup) (gs : List TokenGroup) :
    pairs k (g :: gs) = g.pairsIn k ++ pairs (k + g.weight) gs := by
  rw [pairs]

lemma pairsIn_pair (k : Nat) (b : Bracket) (o c : Token) (inner : List TokenGroup) :
    (pair b o inner c).pairsIn k = (k, k + size inner + 1) :: pairs (k + 1) inner := by
  rw [pairsIn]

def Partners (ts : List Token) (b : Bracket) (i j : Nat) : Prop :=
  (∃ o, ts[i]? = some o ∧ o.lexeme = .op (.opening b)) ∧
    ∃ c, ts[j]? = some c ∧ c.lexeme = .op (.closing b)

lemma Partners.between {ts : List Token} {b : Bracket} {i j : Nat} (us vs : List Token)
    (h : Partners ts b i j) :
    Partners (us ++ ts ++ vs) b (us.length + i) (us.length + j) := by
  obtain ⟨⟨o, ho, hlo⟩, c, hc, hlc⟩ := h
  have hget {i : Nat} {t : Token} (ht : ts[i]? = some t) :
      (us ++ ts ++ vs)[us.length + i]? = some t := by
    rw [List.append_assoc, List.getElem?_append_right (by omega), Nat.add_sub_cancel_left,
      List.getElem?_append_left (List.getElem?_eq_some_iff.1 ht).1, ht]
  exact ⟨⟨o, hget ho, hlo⟩, c, hget hc, hlc⟩

/-- If the token at a position is a bracket, then a table holds it with its partner. Positions in
the table are counted from `k`. -/
structure Paired (table : List (Nat × Nat)) (ts : List Token) (k i : Nat) (t : Token) : Prop where
  opening : ∀ b, t.lexeme = .op (.opening b) → ∃ j, (k + i, k + j) ∈ table ∧ Partners ts b i j
  closing : ∀ b, t.lexeme = .op (.closing b) → ∃ j, (k + j, k + i) ∈ table ∧ Partners ts b j i

lemma Paired.between {table table' : List (Nat × Nat)} {ts : List Token} {k i : Nat} {t : Token}
    (us vs : List Token) (h : Paired table ts (k + us.length) i t) (ht : table ⊆ table') :
    Paired table' (us ++ ts ++ vs) k (us.length + i) t where
  opening b hb := by
    obtain ⟨j, hj, hp⟩ := h.opening b hb
    exact ⟨us.length + j, by simpa [Nat.add_assoc] using ht hj, hp.between us vs⟩
  closing b hb := by
    obtain ⟨j, hj, hp⟩ := h.closing b hb
    exact ⟨us.length + j, by simpa [Nat.add_assoc] using ht hj, hp.between us vs⟩

mutual

lemma paired_in {g : TokenGroup} (h : g.Matched) {i : Nat} {t : Token} (ht : g.spelled[i]? = some t)
    (k : Nat) : Paired (g.pairsIn k) g.spelled k i t := by
  match g, h with
  | .leaf u, .leaf ho hc =>
    obtain rfl : u = t := by
      rw [spelled_leaf] at ht
      exact List.mem_singleton.1 (List.mem_of_getElem? ht) ▸ rfl
    exact ⟨fun b hb => absurd hb (ho b), fun b hb => absurd hb (hc b)⟩
  | .pair b o inner c, .pair ho hc hin =>
    rw [pairsIn_pair]
    have hlast : (pair b o inner c).spelled[size inner + 1]? = some c := by
      simp [← length_tokens]
    have hends : Partners (pair b o inner c).spelled b 0 (size inner + 1) :=
      ⟨⟨o, by simp, ho⟩, c, hlast, hc⟩
    have hlength := length_spelled (pair b o inner c)
    rw [weight_pair] at hlength
    have hi := (List.getElem?_eq_some_iff.1 ht).1
    obtain rfl | rfl | ⟨j, rfl, hj⟩ : i = 0 ∨ i = size inner + 1 ∨ ∃ j, i = 1 + j ∧ j < size inner := by
      by_cases h : i = 0 ∨ i = size inner + 1
      · exact h.imp_right .inl
      · exact .inr (.inr ⟨i - 1, by omega, by omega⟩)
    · obtain rfl : o = t := by simpa using ht
      refine ⟨fun b' hb => ⟨size inner + 1, by simp [Nat.add_assoc], ?_⟩, fun b' hb => ?_⟩
      · obtain rfl : b = b' := by simpa [ho] using hb
        exact hends
      · simp [ho] at hb
    · obtain rfl : c = t := Option.some.inj (hlast ▸ ht)
      refine ⟨fun b' hb => ?_, fun b' hb => ⟨0, by simp [Nat.add_assoc], ?_⟩⟩
      · simp [hc] at hb
      · obtain rfl : b = b' := by simpa [hc] using hb
        exact hends
    · have ht' : (tokens inner)[j]? = some t := by
        rw [spelled_pair, Nat.add_comm, List.getElem?_cons_succ,
          List.getElem?_append_left (by rwa [length_tokens])] at ht
        exact ht
      have := (paired hin ht' (k + 1)).between [o] [c]
        (List.subset_cons_self (k, k + size inner + 1) _)
      simpa using this

lemma paired {gs : List TokenGroup} (h : ∀ g ∈ gs, g.Matched) {i : Nat} {t : Token}
    (ht : (tokens gs)[i]? = some t) (k : Nat) : Paired (pairs k gs) (tokens gs) k i t := by
  match gs with
  | [] => simp at ht
  | g :: gs =>
    obtain ⟨hg, hgs⟩ := List.forall_mem_cons.1 h
    rw [tokens_cons] at ht ⊢
    rw [pairs_cons]
    by_cases hi : i < g.spelled.length
    · rw [List.getElem?_append_left hi] at ht
      have := (paired_in hg ht k).between [] (tokens gs)
        (List.subset_append_left _ (pairs (k + g.weight) gs))
      simpa using this
    · rw [List.getElem?_append_right (by omega)] at ht
      have := (paired hgs ht (k + g.spelled.length)).between g.spelled []
        (List.subset_append_right (g.pairsIn k) _)
      rw [List.append_nil, Nat.add_sub_cancel' (by omega), length_spelled] at this
      exact this

end

end TokenGroup

def Item.Within (n : Nat) : Item → Prop
  | token t => t.Within n
  | comment c => c.Within n

namespace Lexer

lemma within_due {at_ : Cursor} (h : at_.offset ≤ n) (pending : Bool) :
    ∀ it ∈ due pending at_, it.Within n := by
  cases pending with
  | false => simp [due]
  | true => exact List.forall_mem_singleton.2 ⟨h, h⟩

def Inside (n : Nat) : Except Failure (List Item) → Prop
  | .ok its => ∀ it ∈ its, it.Within n
  | .error e => e.offset ≤ n

lemma Inside.map {r : Except Failure (List Item)} {f : List Item → List Item} (h : Inside n r)
    (hf : ∀ its, (∀ it ∈ its, it.Within n) → ∀ it ∈ f its, it.Within n) : Inside n (r.map f) := by
  cases r with
  | ok its => exact hf its h
  | error e => exact h

lemma inside_items {at_ : Cursor} {pending : Bool} {cs : List Char} (h : at_.offset + cs.length ≤ n) :
    Inside n (items at_ pending cs) := by
  have hnext {at_ : Cursor} {c : Char} {cs : List Char} {k : Scan.Class} {more : Nat}
      (h : at_.offset + (c :: cs).length ≤ n) (hf : Scan.first c cs = .ok ⟨k, more⟩) :
      (at_.advance (c :: cs.take more)).offset + (cs.drop more).length ≤ n ∧
        at_.offset + (c :: cs.take more).length ≤ n := by
    have := Scan.first_more_le hf
    rw [Scan.offset_next at_ hf]
    simp only [List.length_cons, List.length_drop, List.length_take] at h ⊢
    omega
  induction at_, pending, cs using items.induct with
  | case1 at_ pending =>
    rw [items]
    exact within_due (by simpa using h) pending
  | case2 at_ pending c cs cause hf =>
    simp only [items, hf]
    exact (Nat.le_add_right _ _).trans h
  | case3 at_ pending c cs more text next hf =>
    rename_i ih
    simp only [items, hf]
    refine (ih (hnext h hf).1).map fun its hits => List.forall_mem_append.2 ⟨?_, hits⟩
    exact within_due (by omega) pending
  | case4 at_ pending c cs more text next hf =>
    rename_i ih
    simp only [items, hf]
    exact ih (hnext h hf).1
  | case5 at_ pending c cs more text next ended hf =>
    rename_i ih
    simp only [items, hf]
    refine (ih (hnext h hf).1).map fun its hits => ?_
    have hcomment : (Item.comment (at_.comment text)).Within n :=
      ⟨(Nat.le_add_right _ _).trans h, (hnext h hf).2⟩
    refine List.forall_mem_append.2 ⟨?_, List.forall_mem_cons.2 ⟨hcomment, hits⟩⟩
    split
    · exact within_due (by omega) pending
    · simp
  | case6 at_ pending c cs more text next l hf =>
    rename_i ih
    simp only [items, hf]
    refine (ih (hnext h hf).1).map fun its hits => ?_
    exact List.forall_mem_cons.2 ⟨⟨(Nat.le_add_right _ _).trans h, (hnext h hf).2⟩, hits⟩

end Lexer

namespace Parser

variable {s : TokenStream}

lemma failAtEnd_sure {α : Type} {P : α → Prop} {reason : Reason} (h : s.source.size ≤ n) :
    Sure n P (failAtEnd s reason) := h

lemma importSpec_sure {follow : Token} {ts : List Token} (hf : follow.Within n)
    (h : ∀ t ∈ ts, t.Within n) : Sure n (Spanned n ·.node) (importSpec follow ts) := by
  have hspec : ∀ name, ∀ t ∈ ts, Sure n (Spanned n ·.node) (importSpec.spec name t) := by
    intro name t ht
    unfold importSpec.spec
    split
    · exact .leaf (h t ht) rfl
    · exact .fail (h t ht)
  unfold importSpec
  split
  · exact .fail hf
  · exact hspec _ _ (by simp)
  · exact hspec _ _ (by simp)
  · exact .fail (h _ (by simp))

lemma statementSpan_le {t : Token} {gs : List TokenGroup} (ht : t.Within n) (h : Within n gs) :
    (statementSpan t gs).start ≤ n ∧ (statementSpan t gs).stop ≤ n := by
  have hst : Within n (⟨.leaf t, upTo isSemicolon gs⟩ : Stretch).toList :=
    Within.cons_iff.2 ⟨by simpa [Within] using ht, h.upTo _⟩
  exact ⟨hst.first.1, hst.last.2⟩

section

variable {gs : List TokenGroup}

lemma importDecl_sure {t : Token} (hsize : s.source.size ≤ n) (ht : t.Within n) (h : Within n gs) :
    Sure n (Spanned n ·.node.node) (importDecl s t gs) := by
  unfold importDecl
  split
  · exact failAtEnd_sure hsize
  · next g rest =>
    have hspan := statementSpan_le ht h
    have hdone (specs : List Placed) : Spanned n (verbatim s (statementSpan t (g :: rest))
        (.importDecl (specs.map Placed.node))).node :=
      spanned_of hspan.1 hspan.2 (by simp [verbatim, Shape.children])
    dsimp only
    split
    · next inner c =>
      refine (Sure.mapM (Q := (Spanned n ·.node)) ?_).bind fun specs _ => hdone specs
      exact fun st hst => importSpec_sure h.closer (h.inner.of_mem_split hst)
    · apply (importSpec_sure h.head.group_first (h.upTo isSemicolon)).bind
      exact fun spec _ => hdone [spec]

lemma typeSpec_sure (L : ∀ k, (sureLaw s n).Below k) {follow : Token} (hf : follow.Within n)
    (h : Within n gs) : Sure n (fun o => ∀ p ∈ o, Spanned n p.node) (typeSpec s follow gs) := by
  unfold typeSpec
  split
  · exact (identifier_sure hf).bind fun _ _ p hp => by cases hp
  · next g rest =>
    apply (identifier_sure h.head.group_first).bind
    intro name hname
    have hs := (aliasMark_suffix _).trans (typeParams_suffix g.first rest)
    dsimp only
    split
    · exact fun p hp => by cases hp
    · next st hst =>
      have hin : Within n st.toList := Stretch.ofList?_eq_some_iff.1 hst ▸ h.tail.suffix hs
      apply ((L _).expr st (Nat.lt_succ_self _) _ hin).bind
      rintro type htype _ ⟨⟩
      have hall : Within n (⟨g, rest⟩ : Stretch).toList := h
      exact spanned_of hall.first.1 hall.last.2
        (List.forall_mem_cons.2 ⟨hname, List.forall_mem_singleton.2 htype⟩)

lemma typeDecl_sure (L : ∀ k, (sureLaw s n).Below k) {t : Token} (hsize : s.source.size ≤ n)
    (ht : t.Within n) (h : Within n gs) : Sure n (Spanned n ·.node.node) (typeDecl s t gs) := by
  unfold typeDecl
  split
  · exact failAtEnd_sure hsize
  · next g rest =>
    have hspan := statementSpan_le ht h
    have hdone (specs : List (Option Placed)) (hspecs : ∀ o ∈ specs, ∀ p ∈ o, Spanned n p.node) :
        Spanned n (verbatim s (statementSpan t (g :: rest))
          (.typeDecl ((specs.filterMap id).map Placed.node))).node := by
      refine spanned_of hspan.1 hspan.2 (List.forall_mem_map.2 ?_)
      intro p hp
      obtain ⟨o, ho, rfl⟩ := List.mem_filterMap.1 hp
      exact hspecs _ ho p rfl
    dsimp only
    split
    · next inner c =>
      refine (Sure.mapM fun st hst => ?_).bind hdone
      exact typeSpec_sure L h.closer (h.inner.of_mem_split hst)
    · apply (typeSpec_sure L h.head.group_first (h.upTo isSemicolon)).bind
      exact fun spec hspec => hdone [spec] (List.forall_mem_singleton.2 hspec)

lemma within_signatureEnd {last : Token} (hl : last.Within n) (h : Within n gs) :
    (signatureEnd last gs).1.Within n := by
  fun_induction signatureEnd last gs with
  | case1 => exact hl
  | case2 => exact hl
  | case3 last t gs _ ih => exact ih h.leaf h.tail
  | case4 last o inner c gs _ ih => exact ih h.closer h.tail
  | case5 => exact hl
  | case6 last b o inner c gs _ ih => exact ih h.closer h.tail

lemma funcRest_sure (L : ∀ k, (sureLaw s n).Below k) {t : Token} {recv : Option String}
    {name : Placed} (hsize : s.source.size ≤ n) (ht : t.Within n) (h : Within n gs) :
    Sure n (Spanned n ·.node.node) (funcRest s t recv name gs) := by
  unfold funcRest
  split
  · next o params c rest =>
    apply ((L _).funcType params (Nat.lt_succ_self _) o c h.opener h.closer h.inner).bind
    intro type htype
    split
    · next bo inner bc after hsig =>
      have hbody := h.tail.suffix (suffix_of_signatureEnd hsig)
      apply ((L _).block inner (Nat.lt_succ_self _) bo bc hbody.opener hbody.closer hbody.inner).bind
      intro body hb
      exact spanned_of ht.1 hbody.closer.2
        (List.forall_mem_cons.2 ⟨htype, List.forall_mem_singleton.2 hb⟩)
    · next last stop _ hsig =>
      have hlast : last.Within n := by
        have := within_signatureEnd (n := n) h.closer h.tail
        rwa [hsig] at this
      exact spanned_of ht.1 hlast.2 (List.forall_mem_singleton.2 htype)
  · exact .fail h.head.group_first
  · exact failAtEnd_sure hsize

lemma funcDecl_sure (L : ∀ k, (sureLaw s n).Below k) {t : Token} (hsize : s.source.size ≤ n)
    (ht : t.Within n) (h : Within n gs) : Sure n (Spanned n ·.node.node) (funcDecl s t gs) := by
  unfold funcDecl
  split
  · exact failAtEnd_sure hsize
  · next g rest =>
    split
    · exact failAtEnd_sure hsize
    · next recv m more hr =>
      have hs := receiver_suffix s (g :: rest)
      rw [hr] at hs
      have hin := h.suffix hs
      apply (identifier_sure hin.head.group_first).bind
      intro name hname
      split
      · exact failAtEnd_sure hsize
      · apply (funcRest_sure L hsize ht (hin.tail.suffix (afterTypeParams_suffix more))).bind
        exact fun step hstep => hstep

lemma genDecl_sure (L : ∀ k, (sureLaw s n).Below k) {t : Token} (ht : t.Within n)
    (h : Within n gs) : Sure n (Spanned n ·.node.node) (genDecl s t gs) := by
  unfold genDecl
  apply ((L _).rawNodes _ (Nat.lt_succ_self _) false (h.upTo isSemicolon)).bind
  intro nodes hn
  exact spanned_raw (statementSpan_le ht h).1 (statementSpan_le ht h).2 (fun _ => rfl) hn

lemma decl_sure (L : ∀ k, (sureLaw s n).Below k) {t : Token} (hsize : s.source.size ≤ n)
    (ht : t.Within n) (h : Within n gs) : Sure n (Spanned n ·.node.node) (decl s t gs) := by
  unfold decl
  split
  · exact importDecl_sure hsize ht h
  · exact funcDecl_sure L hsize ht h
  · exact typeDecl_sure L hsize ht h
  · exact genDecl_sure L ht h
  · exact genDecl_sure L ht h
  · exact .fail ht

lemma decls_sure (L : ∀ k, (sureLaw s n).Below k) (hsize : s.source.size ≤ n) (h : Within n gs) :
    Sure n (fun ps => ∀ p ∈ ps, Spanned n p.node) (decls s gs) := by
  induction gs using decls.induct with
  | case1 =>
    rw [decls]
    exact fun p hp => by cases hp
  | case2 g rest hg ih =>
    rw [decls, if_pos hg]
    exact ih h.tail
  | case3 g rest hg ih =>
    rw [decls, if_neg hg]
    apply (decl_sure L hsize h.head.group_first h.tail).bind
    intro step hstep
    apply (ih step (h.tail.suffix step.rest_suffix)).bind
    exact fun ps hps => List.forall_mem_cons.2 ⟨hstep, hps⟩

theorem stream_sure (hsize : s.source.size ≤ n) (hcs : ∀ c ∈ s.comments, c.Within n)
    (h : Within n s.groups) :
    Sure n (fun p => Spanned n p.node ∧ p.shape.kind = .file) (stream s) := by
  have L := (sureLaw_inductive hcs).below
  unfold stream
  split
  · exact failAtEnd_sure hsize
  · next t rest hg =>
    rw [hg] at h
    split
    · split
      · exact failAtEnd_sure hsize
      · next g rest =>
        apply (identifier_sure h.tail.head.group_first).bind
        intro package _
        apply (decls_sure L hsize h.tail.tail).bind
        intro ps hps
        exact ⟨spanned_of (Nat.zero_le n) hsize (List.forall_mem_map.2 hps), rfl⟩
    · exact .fail h.leaf
  · next g rest _ hg =>
    rw [hg] at h
    exact .fail h.head.group_first

end

end Parser

lemma TokenGroup.offset_of_nest_error {frames : List Frame} {here : List TokenGroup} {ts : List Token}
    {e : Failure} (h : nest frames here ts = .error e) (hf : ∀ f ∈ frames, f.opener.Within n)
    (ht : ∀ t ∈ ts, t.Within n) : e.issue.offset ≤ n := by
  induction frames, here, ts using nest.induct with
  | case1 here => simp [nest] at h
  | case2 f frames here =>
    rw [nest, Except.error.injEq] at h
    exact h ▸ (hf f (by simp)).1
  | case3 frames here t ts b hb ih =>
    simp only [nest, hb] at h
    obtain ⟨ht, hts⟩ := List.forall_mem_cons.1 ht
    exact ih h (List.forall_mem_cons.2 ⟨ht, hf⟩) hts
  | case4 here t ts f outer hb ih =>
    simp only [nest, hb, if_true] at h
    exact ih h (List.forall_mem_cons.1 hf).2 (List.forall_mem_cons.1 ht).2
  | case5 here t ts b hb f outer hne =>
    simp only [nest, hb, hne, if_false, Except.error.injEq] at h
    exact h ▸ (ht t (by simp)).1
  | case6 here t ts b hb =>
    simp only [nest, hb, Except.error.injEq] at h
    exact h ▸ (ht t (by simp)).1
  | case7 frames here t ts hopen hclose ih =>
    rw [nest_leaf hopen hclose] at h
    exact ih h hf (List.forall_mem_cons.1 ht).2

namespace TokenStream

structure Inside (s : TokenStream) : Prop where
  tokens_eq : TokenGroup.tokens s.groups = s.tokens
  matched : ∀ g ∈ s.groups, g.Matched
  tokens : ∀ t ∈ s.tokens, t.Within s.source.size
  comments : ∀ c ∈ s.comments, c.Within s.source.size

lemma ofSource_inside (src : Source) :
    match ofSource src with
    | .ok s => s.source = src ∧ s.Inside
    | .error e => e.offset ≤ src.size := by
  have hitems : Lexer.Inside src.size (Lexer.items .start false src.chars) :=
    Lexer.inside_items (by simp [Cursor.start, Source.size])
  unfold ofSource
  rw [Source.items]
  cases hi : Lexer.items .start false src.chars with
  | error e =>
    rw [hi] at hitems
    exact hitems
  | ok its =>
    rw [hi] at hitems
    have htokens : ∀ t ∈ its.filterMap Item.token?, t.Within src.size := by
      intro t ht
      obtain ⟨it, hit, he⟩ := List.mem_filterMap.1 ht
      cases it <;> cases he
      exact hitems _ hit
    have hcomments : ∀ c ∈ its.filterMap Item.comment?, c.Within src.size := by
      intro c hc
      obtain ⟨it, hit, he⟩ := List.mem_filterMap.1 hc
      cases it <;> cases he
      exact hitems _ hit
    dsimp only
    cases hg : TokenGroup.ofTokens (its.filterMap Item.token?) with
    | error e => exact TokenGroup.offset_of_nest_error hg (by simp) htokens
    | ok gs =>
      obtain ⟨heq, hmatched⟩ := tokens_of_ofTokens hg
      exact ⟨rfl, heq, hmatched, htokens, hcomments⟩

end TokenStream

lemma parse?_sure (src : Source) :
    Parser.Sure src.size (fun file => file.kind = .file ∧ Spanned src.size file) src.parse? := by
  have hin := TokenStream.ofSource_inside src
  unfold Source.parse?
  cases hs : TokenStream.ofSource src with
  | error e =>
    rw [hs] at hin
    exact hin
  | ok s =>
    rw [hs] at hin
    obtain ⟨rfl, hin⟩ := hin
    have hgroups : Within s.source.size s.groups := by
      rw [Within, hin.tokens_eq]
      exact hin.tokens
    exact (Parser.stream_sure (le_refl _) hin.comments hgroups).bind fun p hp => ⟨hp.2, hp.1⟩

/-- A source is read as a file all of whose nodes have spans inside it, or it is refused with the
line and column of an offset inside it. The groups that the tree is read from hold the tokens of the
source in their order. Brackets stand there in pairs, each with its partner, and never alone. -/
theorem parse_total (src : Source) :
    ((∃ file, src.parse = .ok file ∧ file.kind = .file ∧ Spanned src.size file) ∨
      ∃ e offset, src.parse = .error e ∧ offset ≤ src.size ∧
        e.line = 1 + (src.chars.take offset).count '\n' ∧
        e.column = 1 + ((src.chars.take offset).reverse.takeWhile (· ≠ '\n')).length) ∧
    ∀ s, TokenStream.ofSource src = .ok s →
      TokenGroup.tokens s.groups = s.tokens ∧ (∀ g ∈ s.groups, g.Matched) ∧
        ∀ i t, s.tokens[i]? = some t → Paired (TokenGroup.pairs 0 s.groups) s.tokens 0 i t := by
  constructor
  · have hsure := parse?_sure src
    rw [Source.parse]
    cases hp : src.parse? with
    | ok file =>
      rw [hp] at hsure
      exact .inl ⟨file, rfl, hsure⟩
    | error e =>
      rw [hp] at hsure
      exact .inr ⟨_, e.offset, rfl, hsure, Source.lineOf_eq hsure, Source.columnOf_eq hsure⟩
  · intro s hs
    have hin := TokenStream.ofSource_inside src
    rw [hs] at hin
    obtain ⟨-, hin⟩ := hin
    refine ⟨hin.tokens_eq, hin.matched, fun i t ht => ?_⟩
    rw [← hin.tokens_eq] at ht ⊢
    exact paired hin.matched ht 0

end ParallelTests
