import ParallelTests.Proofs.Parse.Bodies
import ParallelTests.Proofs.Recast.Pairs
import ParallelTests.Proofs.Recast.Shelf

/-!
What each rule of the grammar reads from the groups of a source, it reads from those of the copy: a
node of the same shape, and it stops at the same place.
-/

namespace ParallelTests.Parser

open TokenGroup

lemma any_eq_of_forall₂ {α β : Type} {R : α → β → Prop} {as : List α} {bs : List β} {p : α → Bool}
    {q : β → Bool} (h : List.Forall₂ R as bs) (hp : ∀ a b, R a b → q b = p a) : bs.any q = as.any p := by
  induction h with
  | nil => rfl
  | cons hab _ ih => rw [List.any_cons, List.any_cons, hp _ _ hab, ih]

lemma isEmpty_of_length_eq {α β : Type} {as : List α} {bs : List β} (h : bs.length = as.length) :
    bs.isEmpty = as.isEmpty := by
  rw [Bool.eq_iff_iff, List.isEmpty_iff_length_eq_zero, List.isEmpty_iff_length_eq_zero, h]

def Mirrors {α β : Type} (R : α → β → Prop) (x : Result α) (y : Result β) : Prop :=
  ∀ a, x = .ok a → ∃ b, y = .ok b ∧ R a b

namespace Mirrors

variable {α β γ δ : Type} {R : α → β → Prop} {S : γ → δ → Prop} {x : Result α} {y : Result β}

lemma ok {a : α} {b : β} (h : R a b) : Mirrors R (.ok a) (.ok b) := by
  rintro _ ⟨⟩
  exact ⟨b, rfl, h⟩

lemma error {e : Issue} : Mirrors R (.error e) y := by
  rintro _ ⟨⟩

lemma fail {reason : Reason} {t : Token} : Mirrors R (Parser.fail reason t) y := error

lemma bind_of_ok {f : α → Result γ} {g : β → Result δ} (h : Mirrors R x y)
    (hf : ∀ a b, x = .ok a → y = .ok b → R a b → Mirrors S (f a) (g b)) :
    Mirrors S (x >>= f) (y >>= g) := by
  intro c hc
  obtain ⟨a, rfl, hc⟩ := Except.bind_eq_ok_iff.1 hc
  obtain ⟨b, rfl, hab⟩ := h a rfl
  exact hf a b rfl rfl hab c hc

lemma bind {f : α → Result γ} {g : β → Result δ} (h : Mirrors R x y)
    (hf : ∀ a b, R a b → Mirrors S (f a) (g b)) : Mirrors S (x >>= f) (y >>= g) :=
  h.bind_of_ok fun a b _ _ => hf a b

lemma imp_of_ok {S : α → β → Prop} (h : Mirrors R x y)
    (hS : ∀ a b, x = .ok a → y = .ok b → R a b → S a b) : Mirrors S x y := by
  rintro a rfl
  obtain ⟨b, rfl, hab⟩ := h a rfl
  exact ⟨b, rfl, hS a b rfl rfl hab⟩

lemma mapM {f : α → Result γ} {g : β → Result δ} {as : List α} {bs : List β}
    (h : List.Forall₂ R as bs) (hf : ∀ a ∈ as, ∀ b ∈ bs, R a b → Mirrors S (f a) (g b)) :
    Mirrors (List.Forall₂ S) (as.mapM f) (bs.mapM g) := by
  induction h with
  | nil => exact ok .nil
  | cons hab _ ih =>
    rw [List.mapM_cons, List.mapM_cons]
    apply (hf _ (by simp) _ (by simp) hab).bind
    intro c d hcd
    apply (ih fun a ha b hb => hf a (by simp [ha]) b (by simp [hb])).bind
    exact fun cs ds hs => ok (.cons hcd hs)

lemma attach_mapM {as : List α} {bs : List β} {f : { a // a ∈ as } → Result γ}
    {g : { b // b ∈ bs } → Result δ} (h : List.Forall₂ R as bs)
    (hf : ∀ a ha b hb, R a b → Mirrors S (f ⟨a, ha⟩) (g ⟨b, hb⟩)) :
    Mirrors (List.Forall₂ S) (as.attach.mapM f) (bs.attach.mapM g) := by
  have hattach : List.Forall₂ (fun a b => R a.1 b.1) as.attach bs.attach := by
    refine List.forall₂_map_left_iff.1 (List.forall₂_map_right_iff.1 ?_)
    rwa [List.attach_map_subtype_val, List.attach_map_subtype_val]
  exact mapM hattach fun a _ b _ => hf a.1 a.2 b.1 b.2

end Mirrors

structure Faces (s s' : TokenStream) (lost : Nat → Prop) (f : Bool) (x : Twin)
    (gs gs' : List TokenGroup) (z : Twin) : Prop where
  twins : Twins lost s.comments s'.comments f x gs gs' z
  source : s.Has gs
  copy : s'.Has gs'

variable {s s' : TokenStream} {lost : Nat → Prop} {f : Bool} {x y z : Twin} {t : Token} {g : TokenGroup}
  {gs gs' rest rest' : List TokenGroup}

namespace Faces

lemma of_cons (h : Faces s s' lost f x (g :: gs) gs' z) : ∃ g' rest' y, gs' = g' :: rest' ∧
    g.Like g' ∧ Twins lost s.comments s'.comments false x [g] [g'] y ∧ Faces s s' lost f y gs rest' z := by
  obtain ⟨g', rest', y, rfl, hl, hg, hrest⟩ := h.twins.of_cons
  exact ⟨g', rest', y, rfl, hl, hg, hrest, h.source.tail, h.copy.tail⟩

lemma of_leaf (h : Faces s s' lost f x (.leaf t :: gs) gs' z) : ∃ t' rest' y,
    gs' = .leaf t' :: rest' ∧ t'.lexeme = t.lexeme ∧
      Twins lost s.comments s'.comments false x [.leaf t] [.leaf t'] y ∧
        Faces s s' lost f y gs rest' z := by
  obtain ⟨t', rest', y, rfl, he, ht, hrest⟩ := h.twins.of_leaf
  exact ⟨t', rest', y, rfl, he, ht, hrest, h.source.tail, h.copy.tail⟩

lemma of_pair {k : Bracket} {o c : Token} {inner : List TokenGroup}
    (h : Faces s s' lost f x (.pair k o inner c :: gs) gs' z) : ∃ o' inner' c' rest' y,
      gs' = .pair k o' inner' c' :: rest' ∧
        Faces s s' lost false x [.pair k o inner c] [.pair k o' inner' c'] ⟨c, c'⟩ ∧
          Faces s s' lost (k = .curly) ⟨o, o'⟩ inner inner' y ∧
            Faces s s' lost f ⟨c, c'⟩ gs rest' z := by
  obtain ⟨o', inner', c', rest', y, rfl, ho, hi, hc, hrest⟩ := h.twins.of_pair
  exact ⟨o', inner', c', rest', y, rfl, ⟨.pair ho hi hc .nil, h.source.head, h.copy.head⟩,
    ⟨hi, h.source.inner, h.copy.inner⟩, hrest, h.source.tail, h.copy.tail⟩

lemma cut_semicolon (h : Faces s s' lost f x gs gs' z) :
    ∃ y, Faces s s' lost false x (upTo isSemicolon gs) (upTo isSemicolon gs') y := by
  obtain ⟨y, hup, -⟩ := h.twins.cut_semicolon
  exact ⟨y, hup, h.source.upTo _, h.copy.upTo _⟩

lemma cut_strict {p : TokenGroup → Bool} (hp : Blind p) (h : Faces s s' lost false x gs gs' z) :
    ∃ y, Faces s s' lost false x (upTo p gs) (upTo p gs') y ∧
      Faces s s' lost false y (since p gs) (since p gs') z := by
  obtain ⟨y, hup, hsi⟩ := h.twins.cut_strict hp
  exact ⟨y, ⟨hup, h.source.upTo _, h.copy.upTo _⟩,
    ⟨hsi, h.source.suffix (since_suffix _ _), h.copy.suffix (since_suffix _ _)⟩⟩

lemma tail (h : Faces s s' lost false x gs gs' z) : ∃ y, Faces s s' lost false y gs.tail gs'.tail z := by
  obtain ⟨y, ht⟩ := h.twins.tail (by rintro ⟨⟩)
  exact ⟨y, ht, h.source.suffix (List.tail_suffix _), h.copy.suffix (List.tail_suffix _)⟩

lemma dropLast (h : Faces s s' lost false x gs gs' z) :
    ∃ y, Faces s s' lost false x gs.dropLast gs'.dropLast y ∧
      Option.Rel Like gs.getLast? gs'.getLast? := by
  obtain ⟨y, hd, hl⟩ := h.twins.dropLast
  have hs := TokenStream.Has.of_infix h.source (List.dropLast_prefix gs).isInfix
  have hc := TokenStream.Has.of_infix h.copy (List.dropLast_prefix gs').isInfix
  exact ⟨y, ⟨hd, hs, hc⟩, hl⟩

lemma of_semicolon (h : Faces s s' lost f x (g :: gs) gs' z) (hg : g.isSemicolon = true) :
    ∃ g' rest', gs' = g' :: rest' ∧ g'.isSemicolon = true ∧
      Twins lost s.comments s'.comments false x [g] [g'] x ∧ Faces s s' lost f x gs rest' z := by
  obtain ⟨g', rest', rfl, hg', ht, hrest⟩ := h.twins.of_semicolon hg
  exact ⟨g', rest', rfl, hg', ht, hrest, h.source.tail, h.copy.tail⟩

lemma ofList (h : Faces s s' lost false x gs gs' z) :
    Option.Rel (fun st st' : Stretch => Faces s s' lost false x st.toList st'.toList z)
      (Stretch.ofList? gs) (Stretch.ofList? gs') := by
  cases gs with
  | nil =>
    obtain ⟨-, rfl | ⟨⟨⟩, -⟩⟩ := h.twins.of_nil
    exact .none
  | cons g gs =>
    obtain ⟨g', rest', _, rfl, -⟩ := h.of_cons
    exact .some h

lemma dropEllipsis {st st' : Stretch} (h : Faces s s' lost false x st.toList st'.toList z) :
    Option.Rel (fun gs gs' => ∃ y, Faces s s' lost false x gs gs' y) (dropEllipsis? st)
      (dropEllipsis? st') := by
  obtain ⟨y, hd, hl⟩ := h.dropLast
  rw [st.toList_eq_concat, st'.toList_eq_concat, List.getLast?_concat, List.getLast?_concat] at hl
  obtain ⟨hl⟩ := hl
  rw [dropEllipsis?, dropEllipsis?, blind_isOp .ellipsis _ _ hl]
  split
  · exact .some ⟨y, hd⟩
  · exact .none

lemma split {p : TokenGroup → Bool} (hp : Blind p) (h : Faces s s' lost false x gs gs' z) :
    List.Forall₂ (fun st st' : Stretch => ∃ u w, Faces s s' lost false u st.toList st'.toList w)
      (Stretch.split p gs) (Stretch.split p gs') := by
  have hsplit := h.twins.split hp
  have hs : ∀ st ∈ Stretch.split p gs, s.Has st.toList := fun st => h.source.of_mem_split
  have hc : ∀ st ∈ Stretch.split p gs', s'.Has st.toList := fun st => h.copy.of_mem_split
  generalize Stretch.split p gs = sts at hsplit hs
  generalize Stretch.split p gs' = sts' at hsplit hc
  induction hsplit with
  | nil => exact .nil
  | cons hst _ ih =>
    obtain ⟨u, w, hst⟩ := hst
    obtain ⟨hs, hsts⟩ := List.forall_mem_cons.1 hs
    obtain ⟨hc, hcts⟩ := List.forall_mem_cons.1 hc
    exact .cons ⟨u, w, hst, hs, hc⟩ (ih hsts hcts)

lemma leaves (h : Faces s s' lost f x gs gs' z)
    (hl : Leaves lost s.comments s'.comments f x gs gs' z rest rest') :
    ∃ y, Faces s s' lost f y rest rest' z ∧ ∀ {more more'},
      Leaves lost s.comments s'.comments f y rest rest' z more more' →
        Leaves lost s.comments s'.comments f x gs gs' z more more' := by
  obtain ⟨y, hrest, hfurther⟩ := hl.further
  obtain ⟨_, _, _, rfl, rfl, -⟩ := hl
  exact ⟨y, ⟨hrest, h.source.suffix (List.suffix_append _ _), h.copy.suffix (List.suffix_append _ _)⟩,
    hfurther⟩

lemma mono (h : Faces s s' lost f x gs gs' z) {a b : Nat} (ha : a ≤ x.source.stop)
    (hb : ∀ t ∈ tokens gs, a ≤ t.stop ∧ t.start ≤ b) (hl : ∀ i, a ≤ i → i < b → ¬lost i) :
    Faces s s' (fun _ => False) f x gs gs' z :=
  ⟨h.twins.mono ha hb hl, h.source, h.copy⟩

lemma passes (h : Faces s s' lost true x gs gs' z)
    (hp : Passes lost s.comments s'.comments x gs gs' z rest rest') :
    ∃ before before' y, gs = before ++ rest ∧ gs' = before' ++ rest' ∧
      Twins lost s.comments s'.comments true x before before' y ∧ Faces s s' lost true y rest rest' z := by
  obtain ⟨before, before', y, rfl, rfl, hb, hr⟩ := hp
  exact ⟨before, before', y, rfl, rfl, hb, hr, h.source.suffix (List.suffix_append _ _),
    h.copy.suffix (List.suffix_append _ _)⟩

end Faces

structure Takes₂ (s s' : TokenStream) (lost : Nat → Prop) (f : Bool) (x : Twin)
    (gs gs' : List TokenGroup) (z : Twin) (p p' : Placed) (rest rest' : List TokenGroup) : Prop where
  node : p.node.Copied lost p'.node
  leaves : Leaves lost s.comments s'.comments f x gs gs' z rest rest'

def mirrorLaw (s s' : TokenStream) : Law where
  expr st := ∀ ⦃lost x st' z⦄, Faces s s' lost false x st.toList (Stretch.toList st') z → ∀ after,
    Mirrors (fun p p' => p.node.Copied lost p'.node) (expr s after st) (expr s' after st')
  primary st := ∀ ⦃lost x st' z⦄, Faces s s' lost false x st.toList (Stretch.toList st') z →
    Mirrors (Option.Rel fun r r' =>
      Takes₂ s s' lost false x st.toList st'.toList z r.node r'.node r.rest r'.rest)
      (primary s st) (primary s' st')
  trailers gs := ∀ ⦃lost x gs' z⦄, Faces s s' lost false x gs gs' z → ∀ t t' node node',
    node.node.Copied lost node'.node →
      Mirrors (fun r r' => Takes₂ s s' lost false x gs gs' z r.node r'.node r.rest r'.rest)
        (trailers s t node gs) (trailers s' t' node' gs')
  argument st := ∀ ⦃lost x st' z⦄, Faces s s' lost false x st.toList (Stretch.toList st') z →
    Mirrors (fun r r' => r.1.node.Copied lost r'.1.node ∧ r'.2 = r.2) (argument s st) (argument s' st')
  funcLit gs := ∀ ⦃lost f x t t' gs' z⦄, Faces s s' lost f x (.leaf t :: gs) (.leaf t' :: gs') z →
    t.isSemicolon = false →
      Mirrors (Option.Rel fun r r' => Takes₂ s s' lost f x (.leaf t :: gs) (.leaf t' :: gs') z
        r.node r'.node r.rest r'.rest) (funcLit s t gs) (funcLit s' t' gs')
  funcType inner := ∀ ⦃lost x inner' z⦄, Faces s s' lost false x inner inner' z → ∀ o c o' c',
    Mirrors (fun p p' => p.node.Spared lost p'.node) (funcType s o inner c) (funcType s' o' inner' c')
  rawNodes gs := ∀ ⦃lost f x gs' z⦄, Faces s s' lost f x gs gs' z → ∀ after,
    Mirrors (CopiedAll lost) (rawNodes s after gs) (rawNodes s' after gs')
  block inner := ∀ ⦃lost x o c o' inner' c' z⦄,
    Faces s s' lost false x [.pair .curly o inner c] [.pair .curly o' inner' c'] z →
      Mirrors (fun p p' => p.node.Copied lost p'.node) (block s o inner c) (block s' o' inner' c')
  items gs := ∀ ⦃lost x gs' y c c'⦄, Faces s s' lost true x gs gs' y →
    (∀ t ∈ tokens gs, x.source.stop ≤ t.start) →
    y.Next lost s.comments s'.comments ⟨c, c'⟩ → s.Within gs c → s'.Within gs' c' →
      Mirrors (fun os os' => (∀ o ∈ os, o.stmt.node.Keeps lost) →
        (∀ i, x.source.stop ≤ i → i < c.start →
          (∀ o ∈ os, ¬(o.stmt.span.start ≤ i ∧ i < o.stmt.span.stop)) → ¬lost i) →
            Filed s.comments s'.comments x.source.stop x.source.endLine x.copy.stop x.copy.endLine
              os os' c.start c'.start) (items s c gs) (items s' c' gs')
  clause gs := ∀ ⦃lost x t t' gs' y c c'⦄, Faces s s' lost true x (.leaf t :: gs) (.leaf t' :: gs') y →
    y.Next lost s.comments s'.comments ⟨c, c'⟩ → s.Within (.leaf t :: gs) c →
      s'.Within (.leaf t' :: gs') c' → isClause (.leaf t) = true →
        Mirrors (fun r r' => Passes lost s.comments s'.comments x (.leaf t :: gs)
          (.leaf t' :: gs') y r.rest r'.rest ∧
            ((∀ i, r.node.span.stop ≤ i → i < (next c r.rest).start → ¬lost i) →
              r.node.node.Copied lost r'.node.node)) (clause s t c gs) (clause s' t' c' gs')
  clauseBody gs := ∀ ⦃lost x gs' y c c'⦄, Faces s s' lost true x gs gs' y →
    (∀ t ∈ tokens gs, x.source.stop ≤ t.start) →
    y.Next lost s.comments s'.comments ⟨c, c'⟩ → s.Within gs c → s'.Within gs' c' →
      Mirrors (fun r r' => Passes lost s.comments s'.comments x gs gs' y r.rest r'.rest ∧
        ((∀ p ∈ r.nodes, p.node.Keeps lost) →
          (∀ i, x.source.stop ≤ i → i < (next c r.rest).start →
            (∀ p ∈ r.nodes, ¬(p.span.start ≤ i ∧ i < p.span.stop)) → ¬lost i) →
              Filed s.comments s'.comments x.source.stop x.source.endLine x.copy.stop x.copy.endLine
                (r.nodes.map fun p => ⟨p, p.span.stop⟩) (r'.nodes.map fun p => ⟨p, p.span.stop⟩)
                (next c r.rest).start (next c' r'.rest).start))
        (clauseBody s c gs) (clauseBody s' c' gs')
  stmt st := ∀ ⦃lost f x st' z⦄, Faces s s' lost f x st.toList (Stretch.toList st') z →
    st.head.isSemicolon = false → ∀ c c',
      Mirrors (fun r r' => Takes₂ s s' lost f x st.toList st'.toList z r.node r'.node r.rest r'.rest)
        (stmt s c st) (stmt s' c' st')
  labeled gs := ∀ ⦃lost f x gs' z⦄, Faces s s' lost f x gs gs' z → ∀ c c' t t' name colon colon',
    Mirrors (fun r r' => Takes₂ s s' lost f x gs gs' z r.node r'.node r.rest r'.rest)
      (labeled s c t name colon gs) (labeled s' c' t' name colon' gs')
  rawStmt st := ∀ ⦃lost f x st' z⦄, Faces s s' lost f x st.toList (Stretch.toList st') z →
    st.head.isSemicolon = false →
      Mirrors (fun r r' => Takes₂ s s' lost f x st.toList st'.toList z r.node r'.node r.rest r'.rest)
        (rawStmt s st) (rawStmt s' st')
  bodyStmt gs := ∀ ⦃lost f x gs' z⦄, Faces s s' lost f x gs gs' z → ∀ t t' c c',
    Mirrors (fun r r' => Takes₂ s s' lost f x gs gs' z r.node r'.node r.rest r'.rest)
      (bodyStmt s t c gs) (bodyStmt s' t' c' gs')
  ifStmt gs := ∀ ⦃lost f x gs' z⦄, Faces s s' lost f x gs gs' z → ∀ t t' c c',
    Mirrors (fun r r' => Takes₂ s s' lost f x gs gs' z r.node r'.node r.rest r'.rest)
      (ifStmt s t c gs) (ifStmt s' t' c' gs')
  forStmt gs := ∀ ⦃lost f x gs' z⦄, Faces s s' lost f x gs gs' z → ∀ t t' c c',
    Mirrors (fun r r' => Takes₂ s s' lost f x gs gs' z r.node r'.node r.rest r'.rest)
      (forStmt s t c gs) (forStmt s' t' c' gs')
  rangeVars bound := ∀ ⦃lost x bound' z⦄, Faces s s' lost false x bound bound' z → ∀ gs gs',
    Mirrors (fun r r' => r'.1 = r.1 ∧ CopiedAll lost r.2 r'.2) (rangeVars s gs bound)
      (rangeVars s' gs' bound')
  varStmt gs := ∀ ⦃lost f x gs' z⦄, Faces s s' lost f x gs gs' z → ∀ t t' c c',
    Mirrors (fun r r' => Takes₂ s s' lost f x gs gs' z r.node r'.node r.rest r'.rest)
      (varStmt s t c gs) (varStmt s' t' c' gs')
  varType gs := ∀ ⦃lost x gs' z⦄, Faces s s' lost false x gs gs' z →
    Mirrors (fun o o' => CopiedAll lost o.toList o'.toList) (varType s gs) (varType s' gs')
  exprs gs := ∀ ⦃lost x gs' z⦄, Faces s s' lost false x gs gs' z →
    Mirrors (CopiedAll lost) (exprs s gs) (exprs s' gs')
  simple st := ∀ ⦃lost f x st' z⦄, Faces s s' lost f x st.toList (Stretch.toList st') z →
    st.head.isSemicolon = false →
      Mirrors (fun r r' => Takes₂ s s' lost f x st.toList st'.toList z r.node r'.node r.rest r'.rest)
        (simple s st) (simple s' st')

end ParallelTests.Parser
