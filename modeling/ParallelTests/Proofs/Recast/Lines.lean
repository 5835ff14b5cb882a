import ParallelTests.Proofs.Parse.Partition
import ParallelTests.Proofs.Print.Line
import ParallelTests.Proofs.Recast.Verbatim

/-!
Statements and comments that are printed on lines of their own. What was on one line stays on one; a
line that starts a statement or a comment starts one in the source, too.
-/

namespace ParallelTests

open Scan Attach Printer

variable {src : List Char} {lost : Nat → Prop} {p q : Pace} {a b m y : Nat} {ms ns : List Mark}
  {w : List Char} {cs : List Comment}

def Scan.Vacant (src : List Char) (a b : Nat) : Prop :=
  ∃ ms, Reach src a ms b ∧ ∀ m ∈ ms, m = .newline

namespace Recast

variable (lost) in
lemma vacant (h : Reach src a ms b) (hm : ∀ m ∈ ms, m = .newline) :
    ∃ g, Recast src lost p a [] { p with source := g } b ∧
      (ms ≠ [] ∨ p.source = .newline → g = .newline) := by
  induction h generalizing p with
  | refl => exact ⟨p.source, .refl, fun h => h.resolve_left fun h => h rfl⟩
  | @step a m b ms ns hop h ih =>
    obtain ⟨hms, hns⟩ := List.forall_mem_append.1 hm
    rcases hop.marks_cases with rfl | ⟨mark, rfl⟩
    · obtain ⟨g, hg, he⟩ := ih (p := { p with source := p.source.space }) hns
      refine ⟨g, .skip hop hg, fun h => he (h.imp id fun hs => ?_)⟩
      rw [hs]
      rfl
    · obtain rfl : mark = .newline := by simpa using hms
      obtain ⟨g, hg, he⟩ := ih (p := { p with source := .newline }) hns
      exact ⟨g, .skipLine hop hg, fun _ => he (.inr rfl)⟩

lemma newlines_blanks {bs : List Char} (hb : ∀ c ∈ bs, isBlank c = true) (k : Nat) (p : Pace) (a : Nat) :
    Recast src lost p a (List.replicate k '\n' ++ '\n' :: bs)
      { p with copy := .newline, line := False } a := by
  induction k generalizing p with
  | zero => exact .newline_blanks _ hb p a
  | succ k ih =>
    rw [List.replicate_succ, List.cons_append]
    exact .newline (ih { p with copy := .newline, line := False })

end Recast

/-! ### Comments behind something on its line -/

inductive Trail (src : List Char) : Nat → List Comment → Nat → Prop
  | nil {a : Nat} : Trail src a [] a
  | cons {a b : Nat} {c : Comment} {cs : List Comment} (h : Reach src a [] c.start)
      (hop : Hop src c.start [.remark c.text.toList] c.stop) (rest : Trail src c.stop cs b) :
      Trail src a (c :: cs) b

def beside (cs : List Comment) : List Char := cs.flatMap fun c => ' ' :: c.text.toList

lemma toList_texts (before : String) (cs : List Comment) :
    ∃ text, texts (some before) cs = some text ∧ text.toList = before.toList ++ beside cs := by
  induction cs generalizing before with
  | nil => exact ⟨before, rfl, by simp [beside]⟩
  | cons c cs ih =>
    obtain ⟨text, ht, hl⟩ := ih (joined (some before) c.text)
    refine ⟨text, ht, ?_⟩
    rw [hl]
    simp [joined, beside]

lemma beside_eq (cs : List Comment) :
    ((texts none cs).map (" " ++ ·)).getD "" = String.ofList (beside cs) := by
  cases cs with
  | nil => rfl
  | cons c cs =>
    obtain ⟨text, ht, hl⟩ := toList_texts c.text cs
    rw [texts, List.foldl_cons, ← texts, joined, ht, Option.map_some, Option.getD_some]
    apply String.toList_injective
    rw [String.toList_append, hl, String.toList_ofList]
    simp [beside]

lemma wrote_texts (page : Page) {n : Node} (hn : n.layout.trailing = texts none cs) :
    Wrote page (trailing page n) (beside cs) := by
  have he := beside_eq cs
  rw [← hn] at he
  rw [trailing]
  cases ht : n.layout.trailing with
  | none =>
    rw [ht] at he
    have : beside cs = [] := by simpa using congrArg String.toList he.symm
    rw [this]
    exact wrote_refl
  | some text =>
    rw [ht, Option.map_some, Option.getD_some] at he
    rw [← String.toList_ofList (l := beside cs), ← he]
    exact wrote_write page (" " ++ text)

variable (lost) in
lemma Recast.trail (h : Trail src a cs b) (he : p.Even src a) :
    ∃ q, Recast src lost p a (beside cs) q b ∧ q.Even src b := by
  induction h generalizing p with
  | nil => exact ⟨p, .refl, he⟩
  | @cons a b c cs hr hop _ ih =>
    have hl : ¬p.line := he.not_line hr hop (by simp)
    obtain ⟨g, hg⟩ : ∃ g, g = if a = c.start then p.source else p.source.space := ⟨_, rfl⟩
    have hgap : Recast src lost p a [' '] ⟨p.last, g, p.copy.space, p.line⟩ c.start :=
      .blank rfl hl (hg ▸ .spaces (p := { p with copy := p.copy.space }) hr)
    have hbroken : g.broken = p.copy.broken ∧ g.fresh = p.copy.fresh := by
      rw [hg, ← he.same]
      split <;> exact ⟨rfl, rfl⟩
    obtain ⟨hw, heven⟩ := Recast.even_note lost hop
      (p := ⟨p.last, g, p.copy.space, p.line⟩) ⟨hl, fun _ => rfl, hbroken.2⟩ (hgap.tracks he.tracks)
      hbroken.1
    obtain ⟨q, hq, heq⟩ := ih heven
    exact ⟨q, by simpa [beside] using hgap.trans (hw.trans hq), heq⟩

/-! ### Starts of lines -/

structure OpensLine (src : List Char) (y : Nat) : Prop where
  hop : ∃ l m, Hop src y [.lexeme y l] m ∧ l.isSemicolon = false
  broken : ∃ ms, Reach src 0 ms y ∧ ((lastOf ms).1.any Lexeme.endsLine = true → (lastOf ms).2 = true)

structure Pace.Begins (src : List Char) (p : Pace) (y : Nat) : Prop where
  tracks : p.Tracks src y
  copy : p.copy = .newline
  line : ¬p.line

lemma Pace.isPending_of_isName (h : p.isName = true) : p.isPending = true := by
  unfold isName at h
  split at h
  · next hl => rw [isPending, hl]; rfl
  · cases h

lemma Pace.Begins.fits (h : p.Begins src y)
    (hb : p.isPending = true → p.source.broken = true) (l : Lexeme) (text : List Char) :
    p.Fits l text := by
  refine ⟨h.line, fun _ => .inl (by rw [h.copy]; rfl), fun hn _ => ?_, fun hp _ => ?_, fun _ _ => ?_⟩
  · rw [h.tracks.loose (hb (isPending_of_isName hn)), h.copy]
    rfl
  · rw [hb hp, h.copy]
    rfl
  · rw [h.copy]
    rfl

lemma Pace.Begins.broken (h : p.Begins src y) (ho : OpensLine src y) :
    p.isPending = true → p.source.broken = true := by
  obtain ⟨ms, hr, hm⟩ := ho.broken
  obtain ⟨ns, hr', hl⟩ := h.tracks.last
  obtain rfl := hr.unique hr'
  rwa [hl] at hm

inductive Pace.Ready (src : List Char) (p : Pace) (a : Nat) : Prop
  | even (h : p.Even src a)
  | lexeme {l : Lexeme} {m : Nat} (ht : p.Tracks src a) (hop : Hop src a [.lexeme a l] m)
      (hl : l.isSemicolon = false) (hf : p.Fits l (cut src a m))

lemma Pace.Begins.ready (h : p.Begins src y) (ho : OpensLine src y) : p.Ready src y := by
  obtain ⟨l, m, hop, hl⟩ := ho.hop
  exact .lexeme h.tracks hop hl (h.fits (h.broken ho) l _)

def CastsLine (src : List Char) (lost : Nat → Prop) (n : Node) (y e : Nat) : Prop :=
  ∀ rebase base page page' p, Indents rebase → IsIndentation base → Pace.Begins src p y →
    emitLine rebase base page n = .ok page' → ∃ bs w q, Wrote page page' (bs ++ (w ++ ['\n'])) ∧
      (∀ c ∈ bs, isBlank c = true) ∧ Recast src lost p y w q e ∧ q.Even src e

inductive Ranks (src : List Char) (lost : Nat → Prop) : Nat → List Slot → Nat → Prop
  | nil {a : Nat} : Ranks src lost a [] a
  | comment {a e b : Nat} {ms : List Mark} {c : Comment} {cs : List Comment} {xs : List Slot}
      (h : Reach src a ms c.start) (hm : ∀ m ∈ ms, m = .newline) (hne : ms ≠ [])
      (hop : Hop src c.start [.remark c.text.toList] c.stop) (ht : Trail src c.stop cs e)
      (rest : Ranks src lost e xs b) : Ranks src lost a (⟨.comment c, cs⟩ :: xs) b
  | stmt {a e b : Nat} {p : Placed} {cs : List Comment} {xs : List Slot}
      (h : Vacant src a p.span.start)
      (hp : ∀ blank, CastsLine src lost (p.laidOut blank (texts none cs)).node p.span.start e)
      (rest : Ranks src lost e xs b) : Ranks src lost a (⟨.stmt p, cs⟩ :: xs) b

lemma castsLine_comment {c : Comment} {blank : Bool} {e : Nat}
    (hop : Hop src c.start [.remark c.text.toList] c.stop) (ht : Trail src c.stop cs e)
    {rebase : Option Rebase} {base : String} {page page' : Page} (hb : IsIndentation base)
    (hp : p.Begins src c.start) (hs : p.source = .newline)
    (h : emitLine rebase base page ((Shelf.statement c).laidOut blank (texts none cs)).node = .ok page') :
    ∃ bs w q, Wrote page page' (bs ++ (w ++ ['\n'])) ∧ (∀ c ∈ bs, isBlank c = true) ∧
      Recast src lost p c.start w q e ∧ q.Even src e := by
  rw [emitLine_eq (by rintro ⟨⟩) (by rintro ⟨⟩)] at h
  obtain ⟨page₁, he, h⟩ := Except.bind_eq_ok_iff.1 h
  obtain rfl := Except.pure_eq_ok_iff.1 h
  obtain rfl : (page.write (base ++ "\t")).write c.text = page₁ := by
    simpa [Placed.node, Placed.laidOut, Shelf.statement, emit, pure, Except.pure] using he
  obtain ⟨hw, heven⟩ := Recast.even_note lost hop
    ⟨hp.line, fun _ => by rw [hp.copy]; rfl, by rw [hs, hp.copy]⟩ hp.tracks (by rw [hs, hp.copy])
  obtain ⟨q, hq, heq⟩ := Recast.trail lost ht heven
  refine ⟨(base ++ "\t").toList, c.text.toList ++ beside cs, q, ?_, hb.deeper, hw.trans hq, heq⟩
  have hnote : Wrote _ (trailing ((page.write (base ++ "\t")).write c.text)
      ((Shelf.statement c).laidOut blank (texts none cs)).node) (beside cs) := wrote_texts _ rfl
  simpa using ((wrote_write page (base ++ "\t")).trans (wrote_write _ c.text)).trans
    (hnote.trans (wrote_write _ "\n"))

theorem Recast.lines {slots : List Slot} {qs : List Placed} (h : Ranks src lost a slots b)
    (hf : List.Forall₂ Slot.Fills slots qs) (he : p.Even src a) {rebase : Option Rebase}
    {base : String} {first : Bool} {page page' : Page} (hi : Indents rebase)
    (hb : IsIndentation base)
    (hemit : emitLines rebase base first page (qs.map Placed.node) = .ok page') :
    ∃ w v q, Wrote page page' w ∧ '\n' :: w = v ++ ['\n'] ∧ Recast src lost p a v q b ∧
      q.Even src b := by
  induction h generalizing p qs first page with
  | nil =>
    cases hf
    rw [List.map_nil, emitLines] at hemit
    obtain rfl := Except.pure_eq_ok_iff.1 hemit
    exact ⟨[], [], p, wrote_refl, rfl, .refl, he⟩
  | @comment a e b ms c cs xs hr hm hne hop ht _ ih =>
    cases hf with
    | @cons _ q₀ _ qs hq hqs =>
      obtain ⟨blank, rfl⟩ := hq
      obtain ⟨k, page₁, page₂, hk, hline, hrest⟩ := emitLines_cons hemit
      obtain ⟨g, hg, hge⟩ := Recast.vacant lost (p := p) hr hm
      obtain rfl := hge (.inl hne)
      have hbegins : Pace.Begins src ⟨p.last, .newline, .newline, False⟩ c.start :=
        ⟨⟨fun _ => rfl, (hg.tracks he.tracks).last⟩, rfl, id⟩
      obtain ⟨bs, w, q, hw, hbs, hrec, heq⟩ := castsLine_comment hop ht hb hbegins rfl hline
      obtain ⟨w', v, q', hw', hv, hrec', heq'⟩ := ih hqs heq hrest
      refine ⟨_, List.replicate k '\n' ++ '\n' :: bs ++ w ++ v, q', hk.trans (hw.trans hw'), ?_, ?_,
        heq'⟩
      · simp only [List.append_assoc, List.cons_append, ← hv, List.nil_append]
        rw [← List.cons_append, ← List.replicate_succ, List.replicate_succ']
        simp
      · refine .trans (.trans (List.nil_append _ ▸ hg.trans ?_) hrec) hrec'
        exact .newlines_blanks hbs k _ _
  | @stmt a e b st cs xs hvac hp _ ih =>
    cases hf with
    | @cons _ q₀ _ qs hq hqs =>
      obtain ⟨blank, rfl⟩ := hq
      obtain ⟨k, page₁, page₂, hk, hline, hrest⟩ := emitLines_cons hemit
      obtain ⟨ms, hr, hm⟩ := hvac
      obtain ⟨g, hg, -⟩ := Recast.vacant lost (p := p) hr hm
      have hbegins : Pace.Begins src ⟨p.last, g, .newline, False⟩ st.span.start :=
        ⟨⟨(hg.tracks he.tracks).loose, (hg.tracks he.tracks).last⟩, rfl, id⟩
      obtain ⟨bs, w, q, hw, hbs, hrec, heq⟩ := hp blank rebase base _ _ _ hi hb hbegins hline
      obtain ⟨w', v, q', hw', hv, hrec', heq'⟩ := ih hqs heq hrest
      refine ⟨_, List.replicate k '\n' ++ '\n' :: bs ++ w ++ v, q', hk.trans (hw.trans hw'), ?_, ?_,
        heq'⟩
      · simp only [List.append_assoc, List.cons_append, ← hv, List.nil_append]
        rw [← List.cons_append, ← List.replicate_succ, List.replicate_succ']
        simp
      · refine .trans (.trans (List.nil_append _ ▸ hg.trans ?_) hrec) hrec'
        exact .newlines_blanks hbs k _ _

end ParallelTests
