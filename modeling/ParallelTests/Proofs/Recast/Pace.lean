import ParallelTests.Proofs.Layout.Laid
import ParallelTests.Proofs.Scan.Noted

/-!
A source and a copy of it that are read in step: lexemes and comments are read on both sides, white
space on either, and comments at some offsets are missing in the copy. The copy breaks its lines
where it likes, as long as that changes no lexeme, no semicolon that counts, and no comment's place.
-/

namespace ParallelTests

open Scan

structure Gap where
  /-- Something since the last lexeme or comment that both sides have. -/
  apart : Bool
  /-- Something since the last lexeme that is no semicolon. -/
  loose : Bool
  /-- The end of a line since the last lexeme. -/
  broken : Bool
  /-- The end of a line since the last comment, or lexeme that is no semicolon. -/
  fresh : Bool
  deriving DecidableEq

namespace Gap

def none : Gap := ⟨false, false, false, false⟩

def newline : Gap := ⟨true, true, true, true⟩

def space (g : Gap) : Gap := { g with apart := true, loose := true }

def remark (g : Gap) (text : List Char) : Gap :=
  ⟨false, true, g.broken || text.contains '\n', false⟩

def lexeme (g : Gap) (l : Lexeme) : Gap := ⟨false, l.isSemicolon, false, l.isSemicolon && g.fresh⟩

end Gap

structure Pace where
  last : Option Lexeme
  source : Gap
  copy : Gap
  line : Prop

namespace Pace

def start : Pace := ⟨none, .none, .none, False⟩

def isPending (p : Pace) : Bool := p.last.any Lexeme.endsLine

def isName (p : Pace) : Bool :=
  match p.last with
  | some (.ident _) => true
  | _ => false

structure Fits (p : Pace) (l : Lexeme) (text : List Char) : Prop where
  line : ¬p.line
  apart : p.source.apart = true → p.copy.apart = true ∨ Stops text
  loose : p.isName = true → l = .op (.opening .square) → p.source.loose = p.copy.loose
  broken : p.isPending = true → l ≠ .closeCurly → p.source.broken = p.copy.broken
  ended : p.isPending = true → p.source.broken = true → p.copy.broken = true

structure Suits (p : Pace) : Prop where
  line : ¬p.line
  apart : p.source.apart = true → p.copy.apart = true
  fresh : p.source.fresh = p.copy.fresh

def read (p : Pace) (l : Lexeme) : Pace := ⟨l, p.source.lexeme l, p.copy.lexeme l, False⟩

def note (p : Pace) (text : List Char) : Pace :=
  ⟨p.last, p.source.remark text, p.copy.remark text, IsLine text⟩

end Pace

inductive Recast (src : List Char) (lost : Nat → Prop) :
    Pace → Nat → List Char → Pace → Nat → Prop
  | refl {p : Pace} {a : Nat} : Recast src lost p a [] p a
  | skip {p q : Pace} {a m b : Nat} {w : List Char} (hop : Hop src a [] m)
      (h : Recast src lost { p with source := p.source.space } m w q b) : Recast src lost p a w q b
  | skipLine {p q : Pace} {a m b : Nat} {w : List Char} (hop : Hop src a [.newline] m)
      (h : Recast src lost { p with source := .newline } m w q b) : Recast src lost p a w q b
  | lose {p q : Pace} {a m b : Nat} {text w : List Char} (hop : Hop src a [.remark text] m)
      (ha : lost a)
      (hp : p.isPending = true → p.source.broken = false ∧ p.copy.broken = false ∧ '\n' ∉ text)
      (h : Recast src lost { p with source := (p.source.remark text).space } m w q b) :
      Recast src lost p a w q b
  | blank {p q : Pace} {a b : Nat} {c : Char} {w : List Char} (hc : isBlank c = true)
      (hl : ¬p.line) (h : Recast src lost { p with copy := p.copy.space } a w q b) :
      Recast src lost p a (c :: w) q b
  | newline {p q : Pace} {a b : Nat} {w : List Char}
      (h : Recast src lost { p with copy := .newline, line := False } a w q b) :
      Recast src lost p a ('\n' :: w) q b
  | remark {p q : Pace} {a m b : Nat} {text w : List Char} (hop : Hop src a [.remark text] m)
      (hs : p.Suits) (h : Recast src lost (p.note text) m w q b) : Recast src lost p a (text ++ w) q b
  | lexeme {p q : Pace} {a m b : Nat} {l : Lexeme} {w : List Char}
      (hop : Hop src a [.lexeme a l] m) (hf : p.Fits l (cut src a m))
      (h : Recast src lost (p.read l) m w q b) : Recast src lost p a (cut src a m ++ w) q b

variable {src : List Char} {lost : Nat → Prop} {p q r : Pace} {a b m : Nat} {v w : List Char}

namespace Recast

lemma trans (h : Recast src lost p a v q m) (h' : Recast src lost q m w r b) :
    Recast src lost p a (v ++ w) r b := by
  induction h with
  | refl => exact h'
  | skip hop _ ih => exact .skip hop (ih h')
  | skipLine hop _ ih => exact .skipLine hop (ih h')
  | lose hop ha hp _ ih => exact .lose hop ha hp (ih h')
  | blank hc hl _ ih => exact .blank hc hl (ih h')
  | newline _ ih => exact .newline (ih h')
  | remark hop hs _ ih =>
    rw [List.append_assoc]
    exact .remark hop hs (ih h')
  | lexeme hop hf _ ih =>
    rw [List.append_assoc]
    exact .lexeme hop hf (ih h')

lemma single_lexeme {l : Lexeme} (hop : Hop src a [.lexeme a l] m) (hf : p.Fits l (cut src a m)) :
    Recast src lost p a (cut src a m) (p.read l) m := by
  have h : Recast src lost p a (cut src a m ++ []) (p.read l) m := .lexeme hop hf .refl
  simpa using h

lemma single_remark {text : List Char} (hop : Hop src a [.remark text] m) (hs : p.Suits) :
    Recast src lost p a text (p.note text) m := by
  have h : Recast src lost p a (text ++ []) (p.note text) m := .remark hop hs .refl
  simpa using h

lemma blanks {bs : List Char} (hb : ∀ c ∈ bs, isBlank c = true) (hl : ¬p.line) :
    ∃ g, Recast src lost p a bs { p with copy := g } a ∧
      g = if bs = [] then p.copy else p.copy.space := by
  induction bs generalizing p with
  | nil => exact ⟨_, .refl, rfl⟩
  | cons c bs ih =>
    obtain ⟨hc, hbs⟩ := List.forall_mem_cons.1 hb
    obtain ⟨g, hg, he⟩ := ih (p := { p with copy := p.copy.space }) hbs hl
    refine ⟨g, .blank hc hl hg, ?_⟩
    rw [he, if_neg (List.cons_ne_nil c bs)]
    split <;> rfl

end Recast

end ParallelTests
