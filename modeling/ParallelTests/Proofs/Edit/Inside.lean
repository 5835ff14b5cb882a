import ParallelTests.Proofs.Edit.Steps

namespace ParallelTests

namespace Kind

def isTyping (k : Kind) : Bool := k.isExpr || k == .field || k == .funcType

def isInner (k : Kind) : Bool := k.isTyping || k.isStmt

lemma isTyping_of_isExpr {k : Kind} (h : k.isExpr = true) : k.isTyping = true := by
  simp [isTyping, h]

lemma isInner_of_isTyping {k : Kind} (h : k.isTyping = true) : k.isInner = true := by
  simp [isInner, h]

lemma isInner_of_isExpr {k : Kind} (h : k.isExpr = true) : k.isInner = true :=
  isInner_of_isTyping (isTyping_of_isExpr h)

lemma isInner_of_isStmt {k : Kind} (h : k.isStmt = true) : k.isInner = true := by
  simp [isInner, h]

lemma isStmt_eq_false {k : Kind} (h : k.isTyping = true) : k.isStmt = false := by
  cases k <;> first | rfl | cases h

lemma eq_funcType {k : Kind} (h : k.isInner = true) (hs : k.isSilent = true) : k = .funcType := by
  cases k with
  | funcType => rfl
  | typeSpec => cases h
  | _ => cases hs

end Kind

namespace Shape.Proper

open Kind

variable {named : String → Prop} {s : Shape}

lemma isTyping (h : s.Proper named) (hk : s.kind.isTyping = true) (hl : s.kind ≠ .funcLit) :
    ∀ c ∈ s.children, c.kind.isTyping = true := by
  intro c hc
  cases s with
  | ident | basicLit => simp [children] at hc
  | selector x sel =>
    rcases List.mem_cons.1 hc with rfl | hc
    · exact isTyping_of_isExpr h.1
    · obtain rfl := List.mem_singleton.1 hc
      rw [h.2]
      rfl
  | star x =>
    obtain rfl := List.mem_singleton.1 hc
    exact isTyping_of_isExpr h
  | call callee args ellipsis =>
    rcases List.mem_cons.1 hc with rfl | hc
    · exact isTyping_of_isExpr h.1
    · exact isTyping_of_isExpr (h.2 c hc)
  | field names type =>
    rcases List.mem_append.1 hc with hc | hc
    · rw [h.1 c hc]
      rfl
    · obtain rfl := List.mem_singleton.1 hc
      exact isTyping_of_isExpr h.2
  | funcType params =>
    rw [h c hc]
    rfl
  | rawExpr nodes =>
    rw [h c hc]
    rfl
  | funcLit => exact absurd rfl hl
  | _ => cases hk

lemma isInner (h : s.Proper named) (hk : s.kind.isInner = true) :
    ∀ c ∈ s.children, c.kind.isInner = true := by
  intro c hc
  by_cases ht : s.kind.isTyping = true ∧ s.kind ≠ .funcLit
  · exact isInner_of_isTyping (h.isTyping ht.1 ht.2 c hc)
  cases s with
  | funcLit signature type body =>
    rcases List.mem_cons.1 hc with rfl | hc
    · rw [h.1]
      rfl
    · obtain rfl := List.mem_singleton.1 hc
      rw [h.2]
      rfl
  | exprStmt x =>
    obtain rfl := List.mem_singleton.1 hc
    exact isInner_of_isExpr h
  | rawStmt nodes => rcases h c hc with hk | hk | hk <;> rw [hk] <;> rfl
  | block stmts => exact isInner_of_isStmt (h c hc)
  | assign | varStmt => exact isInner_of_isExpr (h c hc)
  | rangeStmt key value tok x body =>
    have hc : c ∈ key.toList ++ value.toList ++ [x] ++ [body] := by simpa [children] using hc
    rcases List.mem_append.1 hc with hc | hc
    · exact isInner_of_isExpr (h.1 c hc)
    · obtain rfl := List.mem_singleton.1 hc
      rw [h.2]
      rfl
  | caseClause header body =>
    rcases List.mem_cons.1 hc with rfl | hc
    · rw [h.1]
      rfl
    · exact isInner_of_isStmt (h.2 c hc)
  | labeled label stmt =>
    rcases List.mem_cons.1 hc with rfl | hc
    · rw [h.1]
      rfl
    · exact isInner_of_isStmt (h.2 c (Option.mem_toList.1 hc))
  | comment => simp [children] at hc
  | ident | basicLit | selector | star | call | field | funcType | rawExpr =>
    exact absurd ⟨rfl, by rintro ⟨⟩⟩ ht
  | _ => cases hk

end Shape.Proper

namespace Node

variable {named : String → Prop} {n m : Node}

/-- No function literal stands in a parameter list. -/
def PlainParams (n : Node) : Prop :=
  ∀ a type, n.at? a = some type → type.kind = .funcType →
    ∀ b m, type.at? b = some m → m.kind ≠ .funcLit

lemma PlainParams.at? {p : Address} (h : n.PlainParams) (hm : n.at? p = some m) :
    m.PlainParams := by
  intro a type hat
  apply h (p ++ a) type
  rwa [at?_append, hm, Option.bind_some]

lemma PlainParams.child {c : Node} (h : n.PlainParams) (hc : c ∈ n.children) : c.PlainParams := by
  obtain ⟨i, hi⟩ := List.mem_iff_getElem?.1 hc
  refine h.at? (p := [i]) ?_
  rw [at?_cons, hi]
  rfl

lemma plainParams_iff_preorder (n : Node) :
    (∀ p ∈ n.preorder [], p.2.kind = .funcType → ∀ q ∈ p.2.preorder [], q.2.kind ≠ .funcLit) ↔
      n.PlainParams := by
  constructor
  · intro h a type hat hk b m hm
    exact h (a, type) (mem_preorder.2 ⟨a, rfl, hat⟩) hk (b, m) (mem_preorder.2 ⟨b, rfl, hm⟩)
  · rintro h ⟨a, type⟩ hp hk ⟨b, m⟩ hq
    obtain ⟨rel, -, hat⟩ := mem_preorder.1 hp
    obtain ⟨rel', -, hm⟩ := mem_preorder.1 hq
    exact h rel type hat hk rel' m hm

instance (n : Node) : Decidable n.PlainParams :=
  decidable_of_iff _ n.plainParams_iff_preorder

lemma isStmt_eq_false_of_at? {b : Address} (h : Shaped named n) (hk : n.kind.isTyping = true)
    (hp : ∀ b m, n.at? b = some m → m.kind ≠ .funcLit) (hm : n.at? b = some m) :
    m.kind.isStmt = false := by
  induction b generalizing n with
  | nil =>
    obtain rfl := Option.some.inj hm
    exact Kind.isStmt_eq_false hk
  | cons i b ih =>
    rw [at?_cons] at hm
    obtain ⟨c, hc, hm⟩ := Option.bind_eq_some_iff.1 hm
    have hmem := List.mem_of_getElem? hc
    refine ih (h.child hmem) (h.proper.isTyping hk (hp [] n rfl) c hmem) (fun b m hm => ?_) hm
    apply hp (i :: b) m
    rwa [at?_cons, hc, Option.bind_some]

lemma leads_of_at? {a : Address} (h : Shaped named n) (hk : n.kind.isInner = true)
    (hp : n.PlainParams) (hm : n.at? a = some m) (hs : m.kind.isStmt = true) : Leads n a m := by
  induction a generalizing n with
  | nil =>
    obtain rfl := Option.some.inj hm
    exact .here
  | cons i a ih =>
    rw [at?_cons] at hm
    obtain ⟨c, hc, hm⟩ := Option.bind_eq_some_iff.1 hm
    have hmem := List.mem_of_getElem? hc
    have hinner := h.proper.isInner hk c hmem
    have hplain := hp.child hmem
    refine .step hc ?_ (ih (h.child hmem) hinner hplain hm)
    by_contra hsilent
    have hfunc := Kind.eq_funcType hinner (by simpa using hsilent)
    have hno := isStmt_eq_false_of_at? (h.child hmem) (by rw [hfunc]; rfl) (hplain [] c rfl hfunc) hm
    simp [hs] at hno

lemma isIdentifier_of_usableName {type field : Node} {name : String} (h : Formed type)
    (hf : type.params.head? = some field) (hn : usableName field.names = some name) :
    IsIdentifier name := by
  obtain ⟨_, _, _, shape⟩ := type
  cases shape with
  | funcType params =>
    have hmem : field ∈ params := List.mem_of_head? hf
    have hfield := h.child hmem
    obtain ⟨_, _, _, shape⟩ := field
    cases shape with
    | field names t =>
      cases names with
      | nil => cases hn
      | cons v names =>
        have hv := hfield.child (c := v) (by simp [children, Node.shape, Shape.children])
        have hk : v.kind = .ident := hfield.proper.1 v (by simp)
        obtain ⟨_, _, _, shape⟩ := v
        cases shape with
        | ident text =>
          have hn : usableName (mk _ _ _ (.ident text) :: names) = some name := hn
          rw [usableName, Option.ite_none_left_eq_some] at hn
          obtain rfl : text = name := Option.some.inj hn.2
          exact hv.proper
        | _ => cases hk
    | _ => cases hn
  | _ => cases hf

end Node

end ParallelTests
