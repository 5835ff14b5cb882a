import ParallelTests.Proofs.Print.Emits

namespace ParallelTests.Printer

open Scan

variable {src : List Char} {extra : Nat → List Lexeme} {a b m : Nat}

lemma emits_plain {n : Node} (hk : n.kind.isPlain = true) (hl : n.layout.Sound)
    (ih : EmitsNode src extra n a b) : EmitsLine src extra n a b := by
  intro rebase base page page' _ hb hend h
  have hkind : n.kind ≠ .caseClause ∧ n.kind ≠ .labeled := by
    constructor <;> (intro he; simp [he, Kind.isPlain] at hk)
  obtain ⟨page₁, page₂, t, h₁, hi, he, h₂, _, hst, k, hk⟩ :=
    emitLine_wrote hkind.1 hkind.2 hl hb h
  obtain ⟨w, hw, hp⟩ := ih _ page₁ page₂ hi he
  obtain ⟨ms, ss, hr, hkeep, hs⟩ := hp.signs hend
  refine ⟨_, (h₁.trans hw).trans h₂, ms, ss ++ List.replicate k .newline, hr, fun rest => ?_,
    hkeep.line.newlines k⟩
  have hsplit : base.toList ++ ['\t'] ++ w ++ (t ++ ['\n']) ++ rest =
      (base ++ "\t").toList ++ (w ++ (t ++ '\n' :: rest)) := by
    simp
  rw [hsplit, signs_blanks hb.deeper, hs _ (hst rest), hk]
  simp [Function.comp_def]

lemma signs_colon {rest : List Char} (h : Stops rest) :
    signs (':' :: rest) = (signs rest).map (.lexeme .colon :: ·) :=
  signs_head (k := .lexeme .colon)
    (first_of_stops (c := ':') (x := []) (u := []) (v := []) (l := .colon) h rfl)

lemma emits_label {name : Node} (h : Labels src extra name a b) {rebase : Option Rebase}
    {page page' : Page} (hi : Indents rebase) (he : emit rebase page name = .ok page') :
    ∃ w ms ss start, Wrote page (page'.write ":") w ∧ Reach src a (ms ++ [.lexeme start .colon]) b ∧
      (∀ rest, Stops rest → signs (w ++ rest) = (signs rest).map (ss ++ ·)) ∧
      Keeps extra (ms ++ [.lexeme start .colon]) ss := by
  cases h with
  | @mk span layout shape _ m c gap l hk hsync hm hl hr hg hc hextra =>
    rw [emit_woven hk] at he
    have hm_le := hm.le
    have hr_le := hr.le
    have hdone : EmitsPieces src extra shape.children [] m m := by
      intro rebase page page' _ h
      obtain rfl := Except.pure_eq_ok_iff.1 h
      exact ⟨[], wrote_refl, .nil hm.le_length⟩
    obtain ⟨w, hw, hp⟩ :=
      emits_text hsync hm (fun o ho ho' => hextra o ho (by omega)) hdone rebase page page' hi he
    have hm' : Reach src a ([] ++ [.lexeme a l]) m := hm
    obtain ⟨ms, ss, hms, hkeep, hs⟩ := hp.signs (.of_sync hsync hl hm')
    obtain rfl := hm.unique hms
    refine ⟨w ++ [':'], .lexeme a l :: gap, ss ++ [.lexeme .colon], c,
      hw.trans (wrote_write page' ":"), hm.trans (hr.trans (.single hc)), fun rest hrest => ?_, ?_⟩
    · rw [List.append_assoc, List.singleton_append, hs _ (stops_cons rfl), signs_colon hrest]
      simp [Function.comp_def]
    · intro s hfit
      obtain ⟨s₁, h₁, hf₁⟩ := hkeep s hfit
      have hgap : gap.any (·.ends s₁.pending) = false := by
        rw [List.any_eq_false]
        intro mark hmark
        have : mark.ends s₁.pending = false :=
          Mark.ends_of_isQuiet (hg mark hmark).1 fun _ => (hg mark hmark).2 rfl
        simp [this]
      have h₂ : Kept extra s₁ gap [] (s₁.read (gap.any (·.ends s₁.pending))) :=
        .gap fun mark hmark => Mark.isGap_of_isQuiet (hg mark hmark).1
      rw [hgap] at h₂
      have hf₂ : (s₁.read false).Fit := by simpa [Stand.read] using hf₁
      refine ⟨_, h₁.trans ?_, Stand.fit_after .colon⟩
      exact h₂.trans (.lexeme rfl (hextra c (by omega) (Nat.le_refl c)) (.inl hf₂) .refl)

lemma emits_bare_label {span : Option Span} {layout : Layout} {name : Node} (hl : layout.Sound)
    (hn : Labels src extra name a b) :
    EmitsLine src extra (.mk span layout none (.labeled name none)) a b := by
  intro rebase base page page' hi hb _ h
  rw [emitLine] at h
  obtain ⟨page₁, he, h⟩ := Except.bind_eq_ok_iff.1 h
  obtain rfl := Except.pure_eq_ok_iff.1 h
  obtain ⟨w, ms, ss, start, hw, hr, hs, hkeep⟩ := emits_label hn hi he
  obtain ⟨t, k, ht, _, hst, hk⟩ :=
    wrote_trailing (n := .mk span layout none (.labeled name none)) hl
  refine ⟨_, ((wrote_write page base).trans hw).trans ((ht _).trans (wrote_write _ "\n")), _,
    ss ++ List.replicate k .newline, hr, fun rest => ?_, hkeep.line.newlines k⟩
  have hsplit : base.toList ++ w ++ (t ++ "\n".toList) ++ rest =
      base.toList ++ (w ++ (t ++ '\n' :: rest)) := by
    simp
  rw [hsplit, signs_blanks hb, hs _ (hst rest), hk]
  simp [Function.comp_def]

lemma not_labeled_of_emit {n : Node} {rebase : Option Rebase} {page page' : Page}
    (hn : n.pieces = none) (h : emit rebase page n = .ok page') : n.kind ≠ .labeled := by
  intro hk
  obtain ⟨span, layout, pieces, shape⟩ := n
  cases shape <;> simp [Node.kind, Node.shape, Shape.kind] at hk
  obtain rfl : pieces = none := hn
  simp [emit] at h

lemma emits_labeled {span : Option Span} {layout : Layout} {name inside : Node} {q : Nat}
    {gap : List Mark} (hl : layout.Sound) (hl' : inside.layout.Sound)
    (hn : Labels src extra name a m) (hr : Reach src m gap q) (hg : ∀ m ∈ gap, m.isGap = true)
    (ih : EmitsNode src extra inside q b) :
    EmitsLine src extra (.mk span layout none (.labeled name (some inside))) a b := by
  intro rebase base page page' hi hb hend h
  rw [emitLine] at h
  obtain ⟨page₁, he, h⟩ := Except.bind_eq_ok_iff.1 h
  obtain ⟨page₂, hin, h⟩ := Except.bind_eq_ok_iff.1 h
  obtain rfl := Except.pure_eq_ok_iff.1 h
  obtain ⟨w, ms, ss, start, hw, hrl, hs, hkeep⟩ := emits_label hn hi he
  obtain ⟨w', hw', hp⟩ := ih _ _ page₂ (indents_moved hb.deeper hl') hin
  obtain ⟨ns, ts, hrn, hkeep', hs'⟩ := hp.signs hend
  have howner : (if inside.layout.trailing.isSome then inside
      else .mk span layout none (.labeled name (some inside))).layout.Sound := by
    split
    · exact hl'
    · exact hl
  obtain ⟨t, k, ht, _, hst, hk⟩ := wrote_trailing howner
  refine ⟨_, (((wrote_write page base).trans hw).trans (wrote_write _ ("\n" ++ (base ++ "\t")))).trans
      (hw'.trans ((ht _).trans (wrote_write _ "\n"))), _,
    ss ++ ([.newline] ++ (ts ++ List.replicate k .newline)), hrl.trans (hr.trans hrn),
    fun rest => ?_, ?_⟩
  · have hsplit : base.toList ++ w ++ ("\n" ++ (base ++ "\t")).toList ++
        (w' ++ (t ++ "\n".toList)) ++ rest =
          base.toList ++ (w ++ '\n' :: ((base ++ "\t").toList ++ (w' ++ (t ++ '\n' :: rest)))) := by
      simp
    rw [hsplit, signs_blanks hb, hs _ (stops_cons rfl), signs_newline, signs_blanks hb.deeper,
      hs' _ (hst rest), hk]
    simp [Function.comp_def]
  · intro s hfit
    obtain ⟨s₁, h₁, hf₁⟩ := hkeep s hfit
    have ho : Opens extra .colon gap [.newline] :=
      opens_newlines hg ((if_pos rfl : (if true then _ else _) = _).mpr rfl) 0
    obtain ⟨s₂, h₂, hf₂⟩ := ho s₁ hf₁.loose (h₁.last_of_concat rfl)
    obtain ⟨s₃, h₃, hf₃⟩ := hkeep'.line.newlines k s₂ hf₂
    exact ⟨s₃, h₁.trans (h₂.trans h₃), hf₃⟩

lemma wrote_tail {tail : List Piece} {children : List Node} {rebase : Option Rebase}
    {page page' : Page} (hi : Indents rebase)
    (ht : tail = [] ∨ ∃ text, IsNote text ∧ tail = [.text (" " ++ text)])
    (h : tail.foldlM (emitPiece rebase children) page = .ok page') :
    ∃ w k, Wrote page page' w ∧ (∀ rest, Stops (w ++ '\n' :: rest)) ∧
      ∀ rest, signs (w ++ '\n' :: rest) =
        (signs ('\n' :: rest)).map (List.replicate k .newline ++ ·) := by
  rcases ht with rfl | ⟨text, ⟨closed, hn⟩, rfl⟩
  · obtain rfl := Except.pure_eq_ok_iff.1 h
    exact ⟨[], 0, wrote_refl, fun rest => stops_cons rfl, fun rest => by simp⟩
  · obtain ⟨old, new, _, _, hw⟩ := wrote_verbatim hi
    obtain ⟨k, hk⟩ := hn.signs
    simp only [List.foldlM_cons, List.foldlM_nil, emitPiece, pure_bind] at h
    obtain rfl := Except.pure_eq_ok_iff.1 h
    have hl : Rebase.lines old new none (" " ++ text).toList = ' ' :: text.toList := by
      have := hn.lines old new [] (.inr endsLine_nil)
      rw [String.toList_append, show " ".toList = [' '] from rfl, List.singleton_append,
        Rebase.lines_cons (by decide) (by decide) (by simp)]
      simpa [Rebase.lines] using this
    have hw' := hw page (" " ++ text)
    rw [hl] at hw'
    refine ⟨_, k, hw', fun rest => stops_cons rfl, fun rest => ?_⟩
    rw [List.cons_append, signs_blank rfl, hk _ (.inr (endsLine_newline rest))]

lemma emits_clause {span hspan : Option Span} {layout hlayout : Layout} {ps tail : List Piece}
    {shape : Shape} {body : List Node} {h start : Nat} {ms : List Mark}
    (hl : layout.trailing = none) (hk : shape.kind ≠ .block) (hsync : Sync src a)
    (hm : Reach src a (ms ++ [.lexeme start .colon]) h)
    (ht : tail = [] ∨ ∃ text, IsNote text ∧ tail = [.text (" " ++ text)])
    (ihh : EmitsPieces src extra shape.children ps a h)
    (ihb : EmitsLines src extra .colon body h b) :
    EmitsLine src extra (.mk span layout none
      (.caseClause (.mk hspan hlayout (some (ps ++ tail)) shape) body)) a b := by
  intro rebase base page page' hi hb hend he
  rw [emitLine] at he
  obtain ⟨page₁, hh, he⟩ := Except.bind_eq_ok_iff.1 he
  rw [emit_woven hk, List.foldlM_append] at hh
  obtain ⟨page₀, h₀, h₁⟩ := Except.bind_eq_ok_iff.1 hh
  have hnone : (if body.isEmpty then trailing page₁ (.mk span layout none
      (.caseClause (.mk hspan hlayout (some (ps ++ tail)) shape) body)) else page₁) = page₁ := by
    simp [trailing, Node.layout, hl]
  rw [hnone] at he
  obtain ⟨w, hw, hp⟩ := ihh rebase _ page₀ hi h₀
  obtain ⟨ms', ss, hr, hkeep, hs⟩ := hp.signs (.of_sync hsync rfl hm)
  obtain rfl := hr.unique hm
  obtain ⟨t, k, htw, hst, htk⟩ := wrote_tail hi ht h₁
  obtain ⟨w', hw', ns, ts, hr', hs', hkeep'⟩ := ihb rebase base true _ page' hi hb he
  refine ⟨_, (((wrote_write page base).trans hw).trans htw).trans ((wrote_write _ "\n").trans hw'), _,
    ss ++ (List.replicate k .newline ++ ts), hr.trans hr', fun rest => ?_, ?_⟩
  · have hsplit : base.toList ++ w ++ t ++ ("\n".toList ++ w') ++ rest =
        base.toList ++ (w ++ (t ++ '\n' :: (w' ++ rest))) := by
      simp
    rw [hsplit, signs_blanks hb, hs _ (hst _), htk, hs']
    simp [Function.comp_def]
  · intro s hfit
    obtain ⟨s₁, h₁, hf₁⟩ := hkeep s hfit
    obtain ⟨s₂, h₂, hl₂⟩ := hkeep'.newlines k s₁ hf₁.loose (h₁.last_of_concat rfl)
    refine ⟨s₂, h₁.trans h₂, hl₂ fun mark hmark => ?_⟩
    obtain ⟨ns', start', l, hls, hn⟩ := hend
    obtain ⟨ns₀, h₀⟩ := hsync
    have hlast := congrArg List.getLast? ((h₀.trans (hr.trans hr')).unique hn)
    rw [← List.append_assoc, List.getLast?_append, Option.mem_def.1 hmark, List.getLast?_concat] at hlast
    obtain rfl : mark = .lexeme start' l := by simpa using hlast
    cases l <;> simp_all [Mark.isGap, Lexeme.isSemicolon]

end ParallelTests.Printer
