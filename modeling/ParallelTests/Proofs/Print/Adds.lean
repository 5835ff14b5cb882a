import ParallelTests.Proofs.Print.Line

namespace ParallelTests.Printer

def Adds (page : Page) (x : Result Page) : Prop := ∀ page', x = .ok page' → ∃ w, Wrote page page' w

variable {rebase : Option Rebase} {base sep : String} {page page' : Page} {n : Node}

namespace Adds

lemma done (page : Page) : Adds page (.ok page) := by
  intro page' h
  obtain rfl := Except.ok.inj h
  exact ⟨[], wrote_refl⟩

lemma lost {breach : Breach} : Adds page (.error breach) := by
  intro page' h
  cases h

lemma behind {w : List Char} {x : Result Page} (hw : Wrote page page' w) (h : Adds page' x) :
    Adds page x := by
  intro page'' hx
  obtain ⟨v, hv⟩ := h page'' hx
  exact ⟨w ++ v, hw.trans hv⟩

lemma write {x : Result Page} {text : String} (h : Adds (page.write text) x) : Adds page x :=
  h.behind (wrote_write page text)

lemma bind {x : Result Page} {f : Page → Result Page} (hx : Adds page x)
    (hf : ∀ page, Adds page (f page)) : Adds page (x >>= f) := by
  intro page'' h
  obtain ⟨page', h', h⟩ := Except.bind_eq_ok_iff.1 h
  obtain ⟨w, hw⟩ := hx page' h'
  exact (hf page').behind hw page'' h

lemma foldlM {α : Type} {f : Page → α → Result Page} {xs : List α}
    (h : ∀ x ∈ xs, ∀ page, Adds page (f page x)) (page : Page) : Adds page (xs.foldlM f page) := by
  induction xs generalizing page with
  | nil => exact .done page
  | cons x xs ih =>
    rw [List.foldlM_cons]
    exact (h x (by simp) page).bind (ih fun y hy => h y (by simp [hy]))

end Adds

structure Adding (n : Node) : Prop where
  emit : ∀ rebase page, Adds page (emit rebase page n)
  line : ∀ rebase base page, Adds page (emitLine rebase base page n)

lemma adds_verbatim (rebase : Option Rebase) (page : Page) (text : String) :
    Adds page (.ok (verbatim rebase page text)) := by
  cases rebase <;> exact (Adds.done _).write

lemma adds_trailing (page : Page) (n : Node) : Adds page (.ok (trailing page n)) := by
  unfold trailing
  split
  · exact .done page
  · exact (Adds.done _).write

lemma adds_emitAll {ns : List Node} (h : ∀ n ∈ ns, Adding n) (page : Page) :
    Adds page (emitAll rebase sep page ns) := by
  induction ns generalizing page with
  | nil =>
    rw [emitAll]
    exact .done page
  | cons n ns ih =>
    cases ns with
    | nil =>
      rw [emitAll]
      exact (h n (by simp)).emit rebase page
    | cons m ms =>
      rw [emitAll]
      · exact ((h n (by simp)).emit rebase page).bind fun page =>
          (ih (fun k hk => h k (by simp [hk])) (page.write sep)).write
      · simp

lemma adds_emitLines {ns : List Node} (h : ∀ n ∈ ns, Adding n) (first : Bool) (page : Page) :
    Adds page (emitLines rebase base first page ns) := by
  induction ns generalizing first page with
  | nil =>
    rw [emitLines]
    exact .done page
  | cons n ns ih =>
    have hrest (page : Page) : Adds page (do
        let page ← emitLine rebase base page n
        emitLines rebase base false page ns) :=
      ((h n (by simp)).line rebase base page).bind (ih (fun m hm => h m (by simp [hm])) false)
    rw [emitLines]
    split
    · exact (hrest _).write
    · exact hrest page

lemma adds_emitPiece {children : List Node} {p : Piece} (hc : ∀ c ∈ children, Adding c)
    (hi : ∀ m, p = .inline m → Adding m) (page : Page) :
    Adds page (emitPiece rebase children page p) := by
  cases p with
  | text text => exact adds_verbatim rebase page text
  | inline m => exact (hi m rfl).emit rebase page
  | child i =>
    rw [emitPiece]
    split
    · next c h => exact (hc c (List.mem_of_getElem? h)).emit rebase page
    · exact .done page

def Braced (w : List Char) : Prop := ∃ mid, w = '{' :: (mid ++ ['}'])

lemma braced_of_block {span : Option Span} {layout : Layout} {pieces : Option (List Piece)}
    {stmts : List Node} {oneLine : Bool} {lead : Option String} (hs : ∀ n ∈ stmts, Adding n)
    (h : emit rebase page (.mk span layout pieces (.block stmts oneLine lead)) = .ok page') :
    ∃ w, Wrote page page' w ∧ Braced w := by
  rcases emit_block_cases h with ⟨-, -, rfl⟩ | ⟨-, -, -, page₁, h₁, rfl⟩ | ⟨page₁, h₁, rfl⟩
  · refine ⟨_, wrote_write page _, ?_⟩
    cases oneLine
    · exact ⟨'\n' :: page.indent.toList, by simp⟩
    · exact ⟨[], by simp⟩
  · obtain ⟨w, hw⟩ := adds_emitAll hs _ page₁ h₁
    exact ⟨_, ((wrote_write page _).trans hw).trans (wrote_write page₁ _), ' ' :: (w ++ [' ']), by simp⟩
  · obtain ⟨w, hw⟩ := adds_emitLines hs _ _ page₁ h₁
    exact ⟨_, ((wrote_write page _).trans hw).trans (wrote_write page₁ _),
      ((lead.map (" " ++ ·)).getD "").toList ++ '\n' :: (w ++ page.indent.toList), by simp⟩

lemma adds_bare {span : Option Span} {layout : Layout} {shape : Shape} (hk : shape.kind ≠ .block)
    (hc : ∀ c ∈ shape.children, Adding c) (rebase : Option Rebase) (page : Page) :
    Adds page (emit rebase page (.mk span layout none shape)) := by
  have hone {c : Node} (hm : c ∈ shape.children) (page : Page) : Adds page (emit rebase page c) :=
    (hc c hm).emit rebase page
  cases shape with
  | ident | basicLit | comment =>
    rw [emit]
    exact (Adds.done _).write
  | selector x sel =>
    rw [emit]
    exact (hone (by simp [Shape.children]) page).bind fun page =>
      (hone (by simp [Shape.children]) _).write
  | star x =>
    rw [emit]
    exact (hone (by simp [Shape.children]) _).write
  | exprStmt x =>
    rw [emit]
    exact hone (by simp [Shape.children]) page
  | call callee args ellipsis =>
    rw [emit]
    refine (hone (by simp [Shape.children]) page).bind fun page => .bind ?_ fun page => .write (.done _)
    exact (adds_emitAll (fun n hn => hc n (by simp [Shape.children, hn])) _).write
  | funcLit signature type body =>
    rw [emit]
    exact (hone (by simp [Shape.children]) _).write
  | assign lhs tok rhs =>
    rw [emit]
    refine (adds_emitAll (fun n hn => hc n (by simp [Shape.children, hn])) _).bind fun page => ?_
    exact (adds_emitAll (fun n hn => hc n (by simp [Shape.children, hn])) _).write
  | varStmt names type values =>
    have hnames (page : Page) : Adds page (emitAll rebase ", " (page.write "var ") names) :=
      (adds_emitAll (fun n hn => hc n (by simp [Shape.children, hn])) _).write
    have hvalues (page : Page) : Adds page (if values.isEmpty then .ok page
        else emitAll rebase ", " (page.write " = ") values) := by
      split
      · exact .done page
      · exact (adds_emitAll (fun n hn => hc n (by simp [Shape.children, hn])) _).write
    cases type with
    | none =>
      rw [emit]
      exact (hnames page).bind hvalues
    | some type =>
      rw [emit]
      refine (hnames page).bind fun page => .bind ?_ hvalues
      exact (hone (by simp [Shape.children]) _).write
  | rangeStmt key value tok x body =>
    have hrest (page : Page) : Adds page (do
        let page ← emit rebase (page.write "range ") x
        emit rebase (page.write " ") body) :=
      (hone (by simp [Shape.children]) _).write.bind fun page =>
        (hone (by simp [Shape.children]) _).write
    cases key with
    | none =>
      cases value <;> rw [emit] <;> exact (hrest _).write
    | some key =>
      cases value with
      | none =>
        rw [emit]
        refine (hone (by simp [Shape.children]) _).write.bind fun page => ?_
        exact (hrest _).write
      | some value =>
        rw [emit]
        refine (hone (by simp [Shape.children]) _).write.bind fun page =>
          .bind (hone (by simp [Shape.children]) _).write fun page => ?_
        exact (hrest _).write
  | block => exact absurd rfl hk
  | _ =>
    rw [emit]
    · exact .lost
    all_goals simp

lemma adds_emitLine (hn : ∀ rebase page, Adds page (emit rebase page n))
    (hc : ∀ c ∈ n.children, Adding c) (rebase : Option Rebase) (base : String) (page : Page) :
    Adds page (emitLine rebase base page n) := by
  have hplain (hk : n.kind ≠ .caseClause) (hk' : n.kind ≠ .labeled) :
      Adds page (emitLine rebase base page n) := by
    rw [emitLine_eq hk hk']
    exact (hn _ _).write.bind fun page => (adds_trailing page n).bind fun page => .write (.done _)
  obtain ⟨span, layout, pieces, shape⟩ := n
  cases shape with
  | caseClause header body =>
    rw [emitLine]
    refine ((hc header (by simp [Node.children, Node.shape, Shape.children])).emit _ _).write.bind
      fun page => ?_
    have hbody (page : Page) : Adds page (emitLines rebase base true (page.write "\n") body) :=
      (adds_emitLines (fun n hn => hc n (by simp [Node.children, Node.shape, Shape.children, hn]))
        true _).write
    split
    · exact (adds_trailing page _).bind hbody
    · exact hbody page
  | labeled label inside =>
    have hlabel (page : Page) : Adds page (emit rebase (page.write base) label) :=
      ((hc label (by simp [Node.children, Node.shape, Shape.children])).emit _ _).write
    cases inside with
    | none =>
      rw [emitLine]
      exact (hlabel page).bind fun page =>
        .write ((adds_trailing _ _).bind fun page => .write (.done _))
    | some inside =>
      rw [emitLine]
      have hinside (page : Page) : Adds page (emit (moved inside (base ++ "\t"))
          ((page.write ":").write ("\n" ++ (base ++ "\t"))) inside) :=
        ((hc inside (by simp [Node.children, Node.shape, Shape.children])).emit _ _).write.write
      exact (hlabel page).bind fun page => (hinside page).bind fun page =>
        (adds_trailing page _).bind fun page => .write (.done _)
  | _ =>
    exact hplain (by simp [Node.kind, Node.shape, Shape.kind])
      (by simp [Node.kind, Node.shape, Shape.kind])

theorem adding (n : Node) : Adding n := by
  induction hw : n.weight using Nat.strongRecOn generalizing n with
  | ind w ih =>
    subst hw
    have hc (c : Node) (hm : c ∈ n.children) : Adding c := ih _ (Node.weight_lt_of_mem_children hm) c rfl
    have hemit (rebase : Option Rebase) (page : Page) : Adds page (emit rebase page n) := by
      obtain ⟨span, layout, pieces, shape⟩ := n
      by_cases hk : shape.kind = .block
      · cases shape with
        | block stmts oneLine lead =>
          intro page' h
          obtain ⟨w, hw, -⟩ := braced_of_block (fun n hn => hc n (by
            simpa [Node.children, Node.shape, Shape.children] using hn)) h
          exact ⟨w, hw⟩
        | _ => cases hk
      · cases pieces with
        | none => exact adds_bare hk hc rebase page
        | some ps =>
          rw [emit_woven hk]
          refine .foldlM (fun p hp page => adds_emitPiece hc (fun m hm => ?_) page) page
          subst hm
          refine ih _ ?_ m rfl
          have := Piece.weight_le_of_mem hp
          simp only [Node.weight, Piece.weights?, Piece.weight] at *
          omega
    exact ⟨hemit, adds_emitLine hemit hc⟩

lemma braced_of_emit (hk : n.kind = .block) (h : emit rebase page n = .ok page') :
    ∃ w, Wrote page page' w ∧ Braced w := by
  obtain ⟨span, layout, pieces, shape⟩ := n
  cases shape with
  | block stmts oneLine lead => exact braced_of_block (fun n _ => adding n) h
  | _ => cases hk

end ParallelTests.Printer
