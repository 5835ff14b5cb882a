import ParallelTests.Proofs.Print.Line

namespace ParallelTests.Printer

open Scan

variable {src : List Char} {extra : Nat → List Lexeme} {a b m : Nat}

def emitTail (rebase : Option Rebase) (page : Page) : List Node → Result Page
  | [] => return page
  | n :: ns => do
    let page ← emit rebase (page.write "; ") n
    emitTail rebase page ns

def emitRow (fresh : Bool) (rebase : Option Rebase) (page : Page) (ns : List Node) : Result Page :=
  if fresh then emitAll rebase "; " page ns else emitTail rebase page ns

lemma emitAll_cons (rebase : Option Rebase) (page : Page) (n : Node) (ns : List Node) :
    emitAll rebase "; " page (n :: ns) = (do
      let page ← emit rebase page n
      emitTail rebase page ns) := by
  induction ns generalizing page n with
  | nil =>
    rw [emitAll]
    cases emit rebase page n <;> rfl
  | cons m ms ih =>
    rw [emitAll]
    · simp only [ih, emitTail]
    · simp

lemma emitRow_nil (fresh : Bool) (rebase : Option Rebase) (page : Page) :
    emitRow fresh rebase page [] = .ok page := by
  cases fresh
  · rfl
  · exact emitAll.eq_1 ..

lemma isPlain_of_needsLine {n : Node} (h : needsLine n = false) : n.kind.isPlain = true := by
  obtain ⟨_, _, _, shape⟩ := n
  cases shape <;> simp_all [needsLine, Node.kind, Node.shape, Shape.kind, Kind.isPlain]

def EmitsNode (src : List Char) (extra : Nat → List Lexeme) (n : Node) (a b : Nat) : Prop :=
  ∀ rebase page page', Indents rebase → emit rebase page n = .ok page' →
    ∃ w, Wrote page page' w ∧ Prints src extra a b w

def EmitsPieces (src : List Char) (extra : Nat → List Lexeme) (children : List Node)
    (ps : List Piece) (a b : Nat) : Prop :=
  ∀ rebase page page', Indents rebase → ps.foldlM (emitPiece rebase children) page = .ok page' →
    ∃ w, Wrote page page' w ∧ Prints src extra a b w

def EmitsLine (src : List Char) (extra : Nat → List Lexeme) (n : Node) (a b : Nat) : Prop :=
  ∀ rebase base page page', Indents rebase → IsIndentation base → LexemeEnd src b →
    emitLine rebase base page n = .ok page' → ∃ w, Wrote page page' w ∧ PrintsLine src extra a b w

def EmitsLines (src : List Char) (extra : Nat → List Lexeme) (last : Lexeme) (ns : List Node)
    (a b : Nat) : Prop :=
  ∀ rebase base first page page', Indents rebase → IsIndentation base →
    emitLines rebase base first page ns = .ok page' →
      ∃ w, Wrote page page' w ∧ PrintsLines src extra last a b w

def EmitsRow (src : List Char) (extra : Nat → List Lexeme) (fresh : Bool) (last : Lexeme)
    (ns : List Node) (a b : Nat) : Prop :=
  ns.any needsLine = false → ∀ rebase page page', Indents rebase →
    emitRow fresh rebase page ns = .ok page' →
      ∃ w, Wrote page page' w ∧ PrintsRow src extra fresh last a b w

def Emits (src : List Char) (extra : Nat → List Lexeme) (part : Part) (a b : Nat) : Prop :=
  match part with
  | .node n => EmitsNode src extra n a b
  | .pieces children ps => EmitsPieces src extra children ps a b
  | .stmts fresh last ns => EmitsLines src extra last ns a b ∧ EmitsRow src extra fresh last ns a b
  | .line n => EmitsLine src extra n a b ∧ (n.kind.isPlain = true → EmitsNode src extra n a b)

lemma emits_text {children : List Node} {ps : List Piece} {ms : List Mark} (hsync : Sync src a)
    (hr : Reach src a ms m) (he : ∀ o, a ≤ o → o < m → extra o = [])
    (ih : EmitsPieces src extra children ps m b) :
    EmitsPieces src extra children (.text (String.ofList (cut src a m)) :: ps) a b := by
  intro rebase page page' hi h
  rw [List.foldlM_cons, emitPiece, pure_bind] at h
  obtain ⟨old, new, ho, hn, hw⟩ := wrote_verbatim hi
  obtain ⟨w, hw', hp⟩ := ih rebase _ page' hi h
  have hv := hw page (String.ofList (cut src a m))
  rw [String.toList_ofList] at hv
  exact ⟨_, hv.trans hw', (Prints.lines ho hn hsync hr he).trans hp⟩

lemma emits_child {children : List Node} {ps : List Piece} {i : Nat} {n : Node}
    (hi : children[i]? = some n) (ihn : EmitsNode src extra n a m)
    (ih : EmitsPieces src extra children ps m b) :
    EmitsPieces src extra children (.child i :: ps) a b := by
  intro rebase page page' hr h
  simp only [List.foldlM_cons, emitPiece, hi] at h
  obtain ⟨page₁, h₁, h₂⟩ := Except.bind_eq_ok_iff.1 h
  obtain ⟨w, hw, hp⟩ := ihn rebase page page₁ hr h₁
  obtain ⟨w', hw', hp'⟩ := ih rebase page₁ page' hr h₂
  exact ⟨w ++ w', hw.trans hw', hp.trans hp'⟩

lemma emits_ended {fresh : Bool} {last : Lexeme} {ms : List Mark} (hr : Reach src a ms b)
    (hg : ∀ m ∈ ms, m.isGap = true) : Emits src extra (.stmts fresh last []) a b := by
  constructor
  · intro rebase base first page page' _ _ h
    rw [emitLines] at h
    obtain rfl := Except.pure_eq_ok_iff.1 h
    exact ⟨[], wrote_refl, ms, [], hr, fun rest => by simp, keepsBehind_gap hg⟩
  · intro _ rebase page page' _ h
    rw [emitRow_nil] at h
    obtain rfl := Except.ok.inj h
    exact ⟨[], wrote_refl, ms, [], hr, fun rest _ => by simp, fun _ rest hs => hs,
      keepsBehind_gap hg⟩

lemma emits_comment {fresh closed : Bool} {last : Lexeme} {span : Option Span} {layout : Layout}
    {text : String} {ns : List Node} (hl : layout.Sound) (ht : Note closed text.toList)
    (hc : closed = true ∨ layout.trailing = none) (ih : EmitsLines src extra last ns a b) :
    Emits src extra (.stmts fresh last (.mk span layout none (.comment text) :: ns)) a b := by
  refine ⟨?_, fun h => by simp [needsLine, Node.shape] at h⟩
  intro rebase base first page page' hi hb h
  obtain ⟨k, page₁, page₂, hk, hline, hrest⟩ := emitLines_cons h
  obtain ⟨w, hw, ms, ss, hr, hs, hkeep⟩ := ih rebase base false page₂ page' hi hb hrest
  obtain ⟨page₃, page₄, t, h₃, _, he, h₄, hnone, _, j, hj⟩ :=
    emitLine_wrote (n := .mk span layout none (.comment text)) (by simp [Node.kind, Node.shape,
      Shape.kind]) (by simp [Node.kind, Node.shape, Shape.kind]) hl hb hline
  rw [emit] at he
  · obtain rfl := Except.pure_eq_ok_iff.1 he
    obtain ⟨i, hi⟩ := ht.signs
    refine ⟨_, ((hk.trans h₃).trans ((wrote_write page₃ text).trans h₄)).trans hw, ms,
      List.replicate (k + 1 + i + j) .newline ++ ss, hr, fun rest => ?_, hkeep.newlines _⟩
    have hsplit : '\n' :: (List.replicate k '\n' ++ (base.toList ++ ['\t']) ++
        (text.toList ++ (t ++ ['\n'])) ++ w ++ rest) =
          List.replicate (k + 1) '\n' ++ ((base ++ "\t").toList ++
            (text.toList ++ (t ++ '\n' :: (w ++ rest)))) := by
      simp [List.replicate_succ]
    have hclosed : closed = true ∨ EndsLine (t ++ '\n' :: (w ++ rest)) := by
      rcases hc with hc | hc
      · exact .inl hc
      · rw [hnone hc]
        exact .inr (endsLine_newline _)
    rw [hsplit, signs_newlines, signs_blanks hb.deeper, hi _ hclosed, hj, hs]
    simp [Function.comp_def, ← List.replicate_append_replicate]

lemma emits_stmt_lines {fresh : Bool} {last last' : Lexeme} {n : Node} {ns : List Node} {e start : Nat}
    {gap ms : List Mark} (hr : Reach src a gap m) (hg : ∀ m ∈ gap, m.isGap = true)
    (hend : if fresh then last.endsLine = false else ∃ m ∈ gap, m.ends last.endsLine = true)
    (hm : Reach src m (ms ++ [.lexeme start last']) e) (hsync : Sync src m)
    (hlast : last'.isSemicolon = false) (ihn : EmitsLine src extra n m e)
    (ih : EmitsLines src extra last' ns e b) : EmitsLines src extra last (n :: ns) a b := by
  intro rebase base first page page' hi hb h
  obtain ⟨k, page₁, page₂, hk, hline, hrest⟩ := emitLines_cons h
  obtain ⟨w₁, hw₁, ms₁, ss₁, hr₁, hs₁, hk₁⟩ :=
    ihn rebase base page₁ page₂ hi hb (.of_sync hsync hlast hm) hline
  obtain ⟨w₂, hw₂, ms₂, ss₂, hr₂, hs₂, hk₂⟩ := ih rebase base false page₂ page' hi hb hrest
  obtain rfl := hr₁.unique hm
  refine ⟨_, (hk.trans hw₁).trans hw₂, _, _, hr.trans (hm.trans hr₂), fun rest => ?_,
    .stmt (opens_newlines hg hend k) hlast hk₁ hk₂⟩
  have hsplit : '\n' :: (List.replicate k '\n' ++ w₁ ++ w₂ ++ rest) =
      List.replicate (k + 1) '\n' ++ (w₁ ++ (w₂ ++ rest)) := by
    simp [List.replicate_succ]
  rw [hsplit, signs_newlines, hs₁, hs₂]
  simp [Function.comp_def]

lemma signs_separator (rest : List Char) :
    signs (';' :: ' ' :: rest) = (signs rest).map (.lexeme (.semicolon true) :: ·) := by
  rw [signs_head (k := .lexeme (.semicolon true)) rfl, signs_blank rfl]
  rfl

lemma emitRow_cons {fresh : Bool} {rebase : Option Rebase} {page page' : Page} {n : Node}
    {ns : List Node} (h : emitRow fresh rebase page (n :: ns) = .ok page') :
    ∃ page₁ page₂, Wrote page page₁ (if fresh then [] else [';', ' ']) ∧
      emit rebase page₁ n = .ok page₂ ∧ emitRow false rebase page₂ ns = .ok page' := by
  cases fresh with
  | true =>
    obtain ⟨page₂, h₁, h₂⟩ := Except.bind_eq_ok_iff.1 ((emitAll_cons ..).symm.trans h)
    exact ⟨page, page₂, wrote_refl, h₁, h₂⟩
  | false =>
    obtain ⟨page₂, h₁, h₂⟩ := Except.bind_eq_ok_iff.1 h
    exact ⟨_, page₂, wrote_write page "; ", h₁, h₂⟩

lemma emits_stmt_row {fresh fresh' : Bool} {last last' : Lexeme} {n : Node} {ns : List Node}
    {e start : Nat} {gap ms : List Mark} (hr : Reach src a gap m) (hg : ∀ m ∈ gap, m.isGap = true)
    (hend : if fresh then last.endsLine = false else ∃ m ∈ gap, m.ends last.endsLine = true)
    (hm : Reach src m (ms ++ [.lexeme start last']) e) (hsync : Sync src m)
    (hlast : last'.isSemicolon = false) (hfresh : fresh' = true → n.kind = .caseClause)
    (ihn : n.kind.isPlain = true → EmitsNode src extra n m e)
    (ih : EmitsRow src extra fresh' last' ns e b) : EmitsRow src extra fresh last (n :: ns) a b := by
  intro hneeds rebase page page' hi h
  rw [List.any_cons, Bool.or_eq_false_iff] at hneeds
  obtain rfl : fresh' = false := by
    by_contra hf
    have hk := isPlain_of_needsLine hneeds.1
    rw [hfresh (by simpa using hf)] at hk
    simp [Kind.isPlain] at hk
  obtain ⟨page₁, page₂, hsep, hemit, hrest⟩ := emitRow_cons h
  obtain ⟨w₁, hw₁, hp₁⟩ := ihn (isPlain_of_needsLine hneeds.1) rebase page₁ page₂ hi hemit
  obtain ⟨ms₁, ss₁, hr₁, hk₁, hs₁⟩ := hp₁.signs (.of_sync hsync hlast hm)
  obtain ⟨w₂, hw₂, ms₂, ss₂, hr₂, hs₂, hst₂, hk₂⟩ := ih hneeds.2 rebase page₂ page' hi hrest
  obtain rfl := hr₁.unique hm
  refine ⟨_, (hsep.trans hw₁).trans hw₂, _, _, hr.trans (hm.trans hr₂), fun rest hrest => ?_,
    ?_, .stmt (opens_row hg hend) hlast hk₁.line hk₂⟩
  · have hs := hs₁ (w₂ ++ rest) (hst₂ rfl rest hrest)
    cases fresh with
    | true =>
      simp only [if_true, List.nil_append, List.append_assoc]
      rw [hs, hs₂ rest hrest]
      simp [Function.comp_def]
    | false =>
      simp only [if_false, List.append_assoc, List.cons_append, List.nil_append, Bool.false_eq_true]
      rw [signs_separator, hs, hs₂ rest hrest]
      simp [Function.comp_def]
  · rintro rfl rest _
    exact stops_cons rfl

end ParallelTests.Printer
