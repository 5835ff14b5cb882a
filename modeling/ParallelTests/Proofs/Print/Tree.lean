import ParallelTests.Proofs.Print.Stmt

namespace ParallelTests.Printer

open Scan

variable {src : List Char} {extra : Nat → List Lexeme} {a b : Nat}

lemma prints_empty {page page' : Page} {oneLine : Bool} {span : Span}
    (ho : Hop src span.start [.lexeme span.start .openCurly] (span.start + 1))
    (hc : Hop src b [.lexeme b .closeCurly] (b + 1)) (he : extra span.start = []) (he' : extra b = [])
    (ih : EmitsRow src extra true .openCurly [] (span.start + 1) b)
    (h : page' = page.write (if oneLine then "\x7b\x7d" else "\x7b\n" ++ page.indent ++ "\x7d")) :
    ∃ w, Wrote page page' w ∧ Prints src extra span.start (b + 1) w := by
  obtain ⟨w, hw, ms, ss, hr, hs, _, hk⟩ := 
    ih rfl none page page (by simp [Indents]) (emitRow_nil ..)
  obtain rfl : w = [] := by simpa [Wrote] using hw
  have hs' (rest : List Char) := hs ('}' :: rest) (stops_cons rfl)
  subst h
  cases oneLine with
  | true =>
    refine ⟨_, wrote_write page "\x7b\x7d", ?_⟩
    have hbraces := prints_braces [] ho hc he' hr hs' (.inl ⟨he, rfl⟩) hk
    exact hbraces
  | false =>
    refine ⟨_, wrote_write page _, ?_⟩
    have hmid : ("\x7b\n" ++ page.indent ++ "\x7d").toList =
        '{' :: ('\n' :: page.indent.toList ++ ['}']) := by
      simp
    rw [if_neg (by simp), hmid]
    refine prints_braces [] ho hc he' hr (fun rest => ?_) (.inl ⟨he, rfl⟩) (hk.newlines 1)
    rw [List.cons_append, signs_newline, signs_blanks fun c hc => isBlank_of_mem_indent hc]
    have hrest := hs' rest
    rw [List.nil_append] at hrest
    nth_rewrite 1 [hrest]
    simp [Function.comp_def]

lemma signs_lead {lead : Option String} (hl : ∀ text ∈ lead, IsNote text) :
    ∃ w k, ((lead.map (" " ++ ·)).getD "").toList = w ∧ ∀ rest, signs (w ++ '\n' :: rest) =
      (signs ('\n' :: rest)).map (List.replicate k .newline ++ ·) := by
  cases lead with
  | none => exact ⟨[], 0, rfl, fun rest => by simp⟩
  | some text =>
    obtain ⟨closed, hn⟩ := hl text rfl
    obtain ⟨k, hk⟩ := hn.signs
    refine ⟨' ' :: text.toList, k, by simp, fun rest => ?_⟩
    rw [List.cons_append, signs_blank rfl, hk _ (.inr (endsLine_newline rest))]

lemma emits_block {span : Span} {layout : Layout} {pieces : Option (List Piece)}
    {ins : List Insert} {own : List Node} {oneLine : Bool} {lead : Option String}
    (ho : Hop src span.start [.lexeme span.start .openCurly] (span.start + 1))
    (hc : Hop src b [.lexeme b .closeCurly] (b + 1)) (hv : ∀ i ∈ ins, i.Valid)
    (he : extra span.start = ins.flatMap Insert.lexemes) (he' : extra b = [])
    (hone : oneLine = true → ins = []) (hl : ∀ text ∈ lead, IsNote text)
    (ihl : EmitsLines src extra .openCurly own (span.start + 1) b)
    (ihr : EmitsRow src extra true .openCurly own (span.start + 1) b) :
    EmitsNode src extra
      (.mk (some span) layout pieces (.block (ins.map Insert.node ++ own) oneLine lead))
      span.start (b + 1) := by
  intro rebase page page' hi h
  rcases emit_block_cases h with ⟨hn, _, hp⟩ | ⟨hone', _, hneeds, page₁, h₁, rfl⟩ | ⟨page₁, h₁, rfl⟩
  · obtain ⟨hins, rfl⟩ := List.append_eq_nil_iff.1 hn
    obtain rfl := List.map_eq_nil_iff.1 hins
    exact prints_empty ho hc he he' ihr hp
  · obtain rfl := hone hone'
    rw [List.map_nil, List.nil_append] at h₁ hneeds
    obtain ⟨w, hw, ms, ss, hr, hs, _, hk⟩ := ihr hneeds rebase _ page₁ hi h₁
    refine ⟨_, ((wrote_write page "\x7b ").trans hw).trans (wrote_write page₁ " \x7d"), ?_⟩
    have hmid : "\x7b ".toList ++ w ++ " \x7d".toList = '{' :: ((' ' :: (w ++ [' '])) ++ ['}']) := by
      simp
    rw [hmid]
    refine prints_braces [] ho hc he' hr (fun rest => ?_) (.inl ⟨he, rfl⟩) hk
    rw [List.cons_append, signs_blank rfl, List.append_assoc, List.singleton_append,
      hs _ (stops_cons rfl), signs_blank rfl]
    rfl
  · have hb : IsIndentation page.indent := fun c hc => isBlank_of_mem_indent hc
    obtain ⟨t, k, ht, hk⟩ := signs_lead hl
    obtain ⟨page₂, first', w₁, xs, hw₁, h₂, hs₁, hx, hx'⟩ := emitLines_insert hb hv h₁
    obtain ⟨w₂, hw₂, ms, ss, hr, hs₂, hkeep⟩ := ihl rebase _ first' page₂ page₁ hi hb h₂
    refine ⟨_, (wrote_write page _).trans (hw₁.trans (hw₂.trans (wrote_write page₁ _))), ?_⟩
    have hmid : ("\x7b" ++ (lead.map (" " ++ ·)).getD "" ++ "\n").toList ++
        (w₁ ++ (w₂ ++ (page.indent ++ "\x7d").toList)) =
          '{' :: ((t ++ '\n' :: (w₁ ++ (w₂ ++ page.indent.toList))) ++ ['}']) := by
      simp [← ht]
    rw [hmid]
    have hsigns (rest : List Char) :
        signs (t ++ '\n' :: (w₁ ++ (w₂ ++ page.indent.toList)) ++ '}' :: rest) =
          (signs ('}' :: rest)).map
            (List.replicate k .newline ++ (xs ++ (ss ++ List.replicate 1 .newline)) ++ ·) := by
      have hsplit : t ++ '\n' :: (w₁ ++ (w₂ ++ page.indent.toList)) ++ '}' :: rest =
          t ++ '\n' :: (w₁ ++ (w₂ ++ (page.indent.toList ++ '}' :: rest))) := by
        simp
      rw [hsplit, hk, hs₁, hs₂, signs_newline, signs_blanks hb]
      simp [Function.comp_def]
    by_cases hins : ins = []
    · subst hins
      obtain rfl := hx' rfl
      refine prints_braces [] ho hc he' hr hsigns (.inl ⟨he, rfl⟩) ?_
      exact (hkeep.append_newlines 1).newlines k
    · refine prints_braces (List.replicate k .newline ++ xs) ho hc he' hr
        (fun rest => by simpa only [List.append_assoc] using hsigns rest) (.inr ⟨?_, ?_⟩)
        (hkeep.append_newlines 1)
      · obtain ⟨i, ins, rfl⟩ := List.exists_cons_of_ne_nil hins
        rw [he]
        cases i <;> simp [Insert.lexemes]
      · rw [words_append, hx, he]
        simp [words]

theorem emits_of_laid {part : Part} (h : Laid src extra part a b) : Emits src extra part a b := by
  induction h with
  | woven hk _ ih =>
    intro rebase page page' hi h
    rw [emit_woven hk] at h
    exact ih rebase page page' hi h
  | block _ ho hc _ hv he he' hone hl _ ih => exact emits_block ho hc hv he he' hone hl ih.1 ih.2
  | done ha =>
    intro rebase page page' _ h
    obtain rfl := Except.pure_eq_ok_iff.1 h
    exact ⟨[], wrote_refl, .nil ha⟩
  | text hsync hr he _ ih => exact emits_text hsync hr he ih
  | child hi _ _ ihn ih => exact emits_child hi ihn ih
  | ended hr hg => exact emits_ended hr hg
  | comment hl ht hc _ ih => exact emits_comment hl ht hc ih.1
  | stmt hr hg hend _ hm hsync hlast hfresh _ ihn ih =>
    exact ⟨emits_stmt_lines hr hg hend hm hsync hlast ihn.1 ih.1,
      emits_stmt_row hr hg hend hm hsync hlast hfresh ihn.2 ih.2⟩
  | plain hk hl _ ih => exact ⟨emits_plain hk hl ih, fun _ => ih⟩
  | clause hl hk hsync _ ht hm _ ihh ihb =>
    exact ⟨emits_clause hl hk hsync hm ht ihh ihb.1, by rintro ⟨⟩⟩
  | label hl hn => exact ⟨emits_bare_label hl hn, by rintro ⟨⟩⟩
  | labeled hl hn hr hg hi hk ih =>
    refine ⟨?_, by rintro ⟨⟩⟩
    rcases hk with hk | hk
    · exact emits_labeled hl (hi.layout_sound fun he => by simp [he, Kind.isPlain] at hk) hn hr hg
        (ih.2 hk)
    · refine emits_labeled hl (hi.layout_sound (by simp [hk])) hn hr hg fun _ _ _ _ h => ?_
      exact absurd hk (not_labeled_of_emit (hi.pieces_eq_none hk) h)

end ParallelTests.Printer
