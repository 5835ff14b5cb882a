import ParallelTests.Proofs.Print.Keep

namespace ParallelTests.Printer

open Scan

variable {src : List Char} {extra : Nat → List Lexeme} {a b : Nat} {ms : List Mark} {ss : List Sign}

lemma says_braces (ho : Hop src a [.lexeme a .openCurly] (a + 1)) {mid : List Char}
    (hs : ∀ rest, signs (mid ++ '}' :: rest) = (signs ('}' :: rest)).map (ss ++ ·)) :
    Says src a b ('{' :: (mid ++ ['}']))
      (.lexeme .openCurly :: (ss ++ [.lexeme .closeCurly])) := by
  intro rest _
  have he : '{' :: (mid ++ ['}']) ++ rest = '{' :: (mid ++ '}' :: rest) := by simp
  rw [he]
  constructor
  · rw [signs_head (k := .lexeme .openCurly) rfl, hs, signs_head (k := .lexeme .closeCurly) rfl]
    simp [Class.signs, Function.comp_def]
  · obtain ⟨c, x, cs, _, hc, hf, hl⟩ := ho.lexeme_inv
    obtain rfl : x = [] := List.length_eq_zero_iff.1 (by omega)
    refine ⟨⟨[], src.drop a, _, rfl, rfl, stops_cons rfl⟩, fun ns text hn ht => ?_⟩
    have := endsLine_of_isLine hn ht
    rw [hc] at this
    obtain rfl := this c (by simp)
    simp [first] at hf

lemma prints_braces (xs : List Sign) (ho : Hop src a [.lexeme a .openCurly] (a + 1))
    (hc : Hop src b [.lexeme b .closeCurly] (b + 1)) (he : extra b = []) (hr : Reach src (a + 1) ms b)
    {mid : List Char}
    (hs : ∀ rest, signs (mid ++ '}' :: rest) = (signs ('}' :: rest)).map (xs ++ ss ++ ·))
    (hx : extra a = [] ∧ xs = [] ∨ extra a ≠ [] ∧ words xs = extra a)
    (hk : KeepsBehind extra .openCurly ms ss) :
    Prints src extra a (b + 1) ('{' :: (mid ++ ['}'])) := by
  refine ⟨[.lexeme a .openCurly] ++ (ms ++ [.lexeme b .closeCurly]), _,
    .step ho (hr.trans (.single hc)), says_braces ho hs, fun s hfit => ?_⟩
  have hclose (s : Stand) : Kept extra s [.lexeme b .closeCurly] [.lexeme .closeCurly]
      (.after .closeCurly) := .lexeme rfl he (.inr rfl) .refl
  rcases hx with ⟨hx, rfl⟩ | ⟨hne, hx⟩
  · obtain ⟨s', h, _⟩ := hk (.after .openCurly) (Stand.fit_after _).loose (.inl rfl)
    exact ⟨_, .lexeme rfl hx (.inl hfit) (h.trans (hclose s')), Stand.fit_after _⟩
  · obtain ⟨s', h, _⟩ := hk .free Stand.fit_free.loose (.inr rfl)
    refine ⟨_, ?_, Stand.fit_after .closeCurly⟩
    rw [List.append_assoc]
    exact .insert hne hx hfit (h.trans (hclose s'))

variable {rebase : Option Rebase} {page page' : Page}

lemma bind_write_eq_ok {x : Result Page} {text : String} :
    (do return (← x).write text : Result Page) = .ok page' ↔
      ∃ page, x = .ok page ∧ page.write text = page' := by
  rw [Except.bind_eq_ok_iff]
  simp [pure, Except.pure]

lemma emit_block_cases {span : Option Span} {layout : Layout} {pieces : Option (List Piece)}
    {stmts : List Node} {oneLine : Bool} {lead : Option String}
    (h : emit rebase page (.mk span layout pieces (.block stmts oneLine lead)) = .ok page') :
    (stmts = [] ∧ lead = none ∧
      page' = page.write (if oneLine then "\x7b\x7d" else "\x7b\n" ++ page.indent ++ "\x7d")) ∨
    (oneLine = true ∧ lead = none ∧ stmts.any needsLine = false ∧
      ∃ page₁, emitAll rebase "; " (page.write "\x7b ") stmts = .ok page₁ ∧
        page' = page₁.write " \x7d") ∨
    ∃ page₁, emitLines rebase page.indent true
        (page.write ("\x7b" ++ (lead.map (" " ++ ·)).getD "" ++ "\n")) stmts = .ok page₁ ∧
      page' = page₁.write (page.indent ++ "\x7d") := by
  rw [emit] at h
  split at h
  · next he =>
    simp only [Bool.and_eq_true, List.isEmpty_iff, Option.isNone_iff_eq_none] at he
    exact .inl ⟨he.1, he.2, (Except.pure_eq_ok_iff.1 h).symm⟩
  · split at h
    · next he =>
      obtain ⟨page₁, hp, rfl⟩ := bind_write_eq_ok.1 h
      simp only [Bool.and_eq_true, fitsLine, Option.isNone_iff_eq_none, Bool.not_eq_true'] at he
      exact .inr (.inl ⟨he.1, he.2.1, he.2.2, page₁, hp, rfl⟩)
    · obtain ⟨page₁, hp, rfl⟩ := bind_write_eq_ok.1 h
      exact .inr (.inr ⟨page₁, hp, rfl⟩)

end ParallelTests.Printer
