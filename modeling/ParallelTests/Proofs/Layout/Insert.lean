import ParallelTests.Proofs.Print.Written
import ParallelTests.Proofs.Scan.Sign
import ParallelTests.TestFunction.TableLoop

namespace ParallelTests

open Scan Printer

inductive Insert
  | call (handle method : String)
  | rebind (name : String)
  deriving DecidableEq, Repr

def Lexeme.openCurly : Lexeme := .op (.opening .curly)

def Lexeme.closeCurly : Lexeme := .op (.closing .curly)

def Lexeme.colon : Lexeme := .op .colon

namespace Insert

def lexemes : Insert → List Lexeme
  | call handle method =>
    [.ident handle, .op .period, .ident method, .op (.opening .round), .op (.closing .round)]
  | rebind name => [.ident name, .op .define, .ident name]

def node : Insert → Node
  | call handle method => .parallelCall handle method
  | rebind name => .rebinding name

lemma kind_node (i : Insert) : i.node.kind = .exprStmt ∨ i.node.kind = .assign := by
  cases i
  · exact .inl rfl
  · exact .inr rfl

end Insert

/-- A name that is read as an identifier. -/
def IsIdentifier (name : String) : Prop :=
  (∃ c cs, name.toList = c :: cs ∧ Text.isWordStart c = true ∧ ∀ d ∈ cs, Text.isWord d = true) ∧
    Lexeme.ofWord name = .ident name

def isIdentifier (name : String) : Bool :=
  decide (Lexeme.ofWord name = .ident name) &&
    match name.toList with
    | [] => false
    | c :: cs => Text.isWordStart c && cs.all Text.isWord

lemma isIdentifier_iff (name : String) : isIdentifier name = true ↔ IsIdentifier name := by
  unfold isIdentifier IsIdentifier
  cases name.toList with
  | nil => simp
  | cons c cs =>
    rw [Bool.and_eq_true, decide_eq_true_eq, Bool.and_eq_true, List.all_eq_true]
    constructor
    · rintro ⟨hw, hc, hcs⟩
      exact ⟨⟨c, cs, rfl, hc, hcs⟩, hw⟩
    · rintro ⟨⟨_, _, h, hc, hcs⟩, hw⟩
      obtain ⟨rfl, rfl⟩ := List.cons.inj h
      exact ⟨hw, hc, hcs⟩

instance (name : String) : Decidable (IsIdentifier name) :=
  decidable_of_iff _ (isIdentifier_iff name)

namespace Scan

lemma isDigit_of_isWordStart {c : Char} (h : Text.isWordStart c = true) : c.isDigit = false := by
  by_contra hc
  have hd : c.isDigit = true := by simpa using hc
  have hlt : c.toNat < 0x80 := by
    simp only [Char.isDigit, Bool.and_eq_true, decide_eq_true_eq] at hd
    have : c.val.toNat ≤ 57 := hd.2
    exact Nat.lt_of_le_of_lt this (by decide)
  simp [Text.isWordStart, Text.isDecimal, hlt, hd] at h

lemma ne_of_isWordStart {c d : Char} (h : Text.isWordStart c = true)
    (hd : Text.isWordStart d = false) : c ≠ d := by
  rintro rfl
  rw [h] at hd
  simp at hd

lemma first_word {c : Char} {x y : List Char} (hc : Text.isWordStart c = true)
    (hx : ∀ d ∈ x, Text.isWord d = true) (hy : ∀ d ∈ y.head?, Text.isWord d = false) :
    first c (x ++ y) =
      .ok ⟨.lexeme (.ofWord (String.ofList (c :: x))), x.length⟩ := by
  have hr : runLength Text.isWord (x ++ y) = x.length := runLength_append_iff.2 ⟨hx, hy⟩
  have hn : c ≠ '\n' := ne_of_isWordStart hc (by decide)
  have hs : c ≠ '/' := ne_of_isWordStart hc (by decide)
  have hp : c ≠ '.' := ne_of_isWordStart hc (by decide)
  have hb : isBlank c = false := by
    by_contra hb
    rw [Bool.not_eq_false] at hb
    have : Text.isWordStart c = false := by
      apply not_of_isStop (p := Text.isWordStart) (by decide)
      simp [isStop, hb]
    rw [hc] at this
    simp at this
  simp [first, hn, hb, hs, startsNumber, isDigit_of_isWordStart hc, hp, hc, hr, token]

lemma signs_identifier {name : String} (h : IsIdentifier name) {d : Char}
    (hd : Text.isWord d = false) (rest : List Char) :
    signs (name.toList ++ d :: rest) = (signs (d :: rest)).map (.lexeme (.ident name) :: ·) := by
  obtain ⟨⟨c, cs, hn, hc, hcs⟩, hw⟩ := h
  have hf := first_word (y := d :: rest) hc hcs (by simpa using hd)
  rw [← hn, String.ofList_toList, hw] at hf
  rw [hn, List.cons_append]
  exact signs_of_first hf

lemma first_period {c : Char} (hc : Text.isWordStart c = true) (cs : List Char) :
    first '.' (c :: cs) = .ok ⟨.lexeme (.op .period), 0⟩ := by
  have hp : ('.' == c) = false := by
    simpa using (ne_of_isWordStart hc (by decide)).symm
  have ho : Operator.ofHead? ('.' :: c :: cs) = some .period := by
    simp [Operator.ofHead?, Operator.all, Operator.chars, Arith.chars, List.find?, List.isPrefixOf,
      Bracket.opener, Bracket.closer, hp]
  simp [first, isBlank, startsNumber, isDigit_of_isWordStart hc, operator, ho, Text.isWordStart,
    Text.isWord, Operator.chars]

lemma signs_period {c : Char} (hc : Text.isWordStart c = true) (rest : List Char) :
    signs ('.' :: c :: rest) = (signs (c :: rest)).map (.lexeme (.op .period) :: ·) :=
  signs_head (first_period hc rest)

end Scan

namespace Insert

def Valid : Insert → Prop
  | call handle method => IsIdentifier handle ∧ IsIdentifier method
  | rebind name => IsIdentifier name

def text : Insert → String
  | call handle method => handle ++ "." ++ method ++ "()"
  | rebind name => name ++ " := " ++ name

lemma emit_node (i : Insert) (page : Page) :
    ∃ page', emit none page i.node = .ok page' ∧ Wrote page page' i.text.toList := by
  cases i with
  | call handle method =>
    simp [node, Node.parallelCall, Node.bare, emit, emitAll, bind, Except.bind, pure, Except.pure,
      Wrote, text]
  | rebind name =>
    simp [node, Node.rebinding, Node.bare, emit, emitAll, bind, Except.bind, Wrote, text, pure,
      Except.pure]

lemma signs_text {i : Insert} (h : i.Valid) (rest : List Char) :
    signs (i.text.toList ++ '\n' :: rest) =
      (signs ('\n' :: rest)).map (i.lexemes.map .lexeme ++ ·) := by
  cases i with
  | call handle method =>
    obtain ⟨⟨c, cs, hm, hc, _⟩, _⟩ := h.2
    have hp (rest : List Char) : signs ('.' :: (method.toList ++ rest)) =
        (signs (method.toList ++ rest)).map (.lexeme (.op .period) :: ·) := by
      rw [hm]
      exact signs_period hc _
    have ht : (call handle method).text.toList ++ '\n' :: rest =
        handle.toList ++ '.' :: (method.toList ++ '(' :: ')' :: '\n' :: rest) := by
      simp [text]
    rw [ht, signs_identifier h.1 (by decide), hp, signs_identifier h.2 (by decide),
      signs_head (k := .lexeme (.op (.opening .round))) rfl,
      signs_head (k := .lexeme (.op (.closing .round))) rfl]
    simp [lexemes, Class.signs, Function.comp_def]
  | rebind name =>
    have hd : signs (':' :: '=' :: ' ' :: (name.toList ++ '\n' :: rest)) =
        (signs (name.toList ++ '\n' :: rest)).map (.lexeme (.op .define) :: ·) := by
      have hf : first ':' (['='] ++ ' ' :: (name.toList ++ '\n' :: rest)) =
          .ok ⟨.lexeme (.op .define), 1⟩ := rfl
      have := signs_of_first hf
      rwa [signs_blank (c := ' ') rfl] at this
    have ht : (rebind name).text.toList ++ '\n' :: rest =
        name.toList ++ ' ' :: ':' :: '=' :: ' ' :: (name.toList ++ '\n' :: rest) := by
      simp [text]
    rw [ht, signs_identifier h (by decide), signs_blank rfl, hd, signs_identifier h (by decide)]
    simp [lexemes, Function.comp_def]

end Insert

end ParallelTests
