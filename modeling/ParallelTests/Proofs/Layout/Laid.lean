import ParallelTests.Node.Placed
import ParallelTests.Proofs.Layout.Kept
import ParallelTests.Proofs.Layout.Insert
import ParallelTests.Proofs.Layout.Note

/-!
Trees that lie over a source: the text of a node is that between two offsets, with the nodes below
it laid in it, and a block is a brace, statements with gaps between them, and a brace. Behind an
opening brace, statements may stand that are not in the source.
-/

namespace ParallelTests

open Scan

lemma Insert.words_lexemes (i : Insert) : words (i.lexemes.map .lexeme) = i.lexemes := by
  cases i <;> rfl

def IsNote (text : String) : Prop := ∃ closed, Note closed text.toList

structure Layout.Sound (l : Layout) : Prop where
  trailing : ∀ text ∈ l.trailing, IsNote text
  indent : ∀ text ∈ l.indent, ∀ c ∈ text.toList, isBlank c = true

def Kind.isPlain : Kind → Bool
  | .comment | .caseClause | .labeled => false
  | _ => true

inductive Labels (src : List Char) (extra : Nat → List Lexeme) : Node → Nat → Nat → Prop
  | mk {span : Option Span} {layout : Layout} {shape : Shape} {a m c : Nat} {gap : List Mark}
      {l : Lexeme} (hk : shape.kind ≠ .block) (hsync : Sync src a) (hm : Reach src a [.lexeme a l] m)
      (hl : l.isSemicolon = false) (hr : Reach src m gap c) (hg : Quiet true gap)
      (hc : Hop src c [.lexeme c .colon] (c + 1)) (he : ∀ o, a ≤ o → o ≤ c → extra o = []) :
      Labels src extra (.mk span layout (some [.text (String.ofList (cut src a m))]) shape) a (c + 1)

inductive Part
  | node (n : Node)
  | pieces (children : List Node) (ps : List Piece)
  | stmts (fresh : Bool) (last : Lexeme) (ns : List Node)
  | line (n : Node)

inductive Laid (src : List Char) (extra : Nat → List Lexeme) : Part → Nat → Nat → Prop
  | woven {span : Option Span} {layout : Layout} {ps : List Piece} {shape : Shape} {a b : Nat}
      (hk : shape.kind ≠ .block) (h : Laid src extra (.pieces shape.children ps) a b) :
      Laid src extra (.node (.mk span layout (some ps) shape)) a b
  | block {span : Span} {layout : Layout} {pieces : Option (List Piece)} {ins : List Insert}
      {own : List Node} {oneLine : Bool} {lead : Option String} {b : Nat}
      (hstop : span.stop = b + 1)
      (ho : Hop src span.start [.lexeme span.start .openCurly] (span.start + 1))
      (hc : Hop src b [.lexeme b .closeCurly] (b + 1)) (hsync : Sync src span.start)
      (hv : ∀ i ∈ ins, i.Valid) (he : extra span.start = ins.flatMap Insert.lexemes)
      (he' : extra b = [])
      (hone : oneLine = true → ins = []) (hl : ∀ text ∈ lead, IsNote text)
      (h : Laid src extra (.stmts true .openCurly own) (span.start + 1) b) :
      Laid src extra
        (.node (.mk (some span) layout pieces (.block (ins.map Insert.node ++ own) oneLine lead)))
        span.start (b + 1)
  | done {children : List Node} {a : Nat} (ha : a ≤ src.length) :
      Laid src extra (.pieces children []) a a
  | text {children : List Node} {ps : List Piece} {a m b : Nat} {ms : List Mark}
      (hsync : Sync src a) (hr : Reach src a ms m) (he : ∀ o, a ≤ o → o < m → extra o = [])
      (h : Laid src extra (.pieces children ps) m b) :
      Laid src extra (.pieces children (.text (String.ofList (cut src a m)) :: ps)) a b
  | child {children : List Node} {ps : List Piece} {i : Nat} {n : Node} {a m b : Nat}
      (hi : children[i]? = some n) (hn : Laid src extra (.node n) a m)
      (h : Laid src extra (.pieces children ps) m b) :
      Laid src extra (.pieces children (.child i :: ps)) a b
  | ended {fresh : Bool} {last : Lexeme} {a b : Nat} {ms : List Mark} (hr : Reach src a ms b)
      (hg : ∀ m ∈ ms, m.isGap = true) : Laid src extra (.stmts fresh last []) a b
  | comment {fresh closed : Bool} {last : Lexeme} {span : Option Span} {layout : Layout}
      {text : String} {ns : List Node} {a b : Nat} (hl : layout.Sound)
      (ht : Note closed text.toList) (hc : closed = true ∨ layout.trailing = none)
      (h : Laid src extra (.stmts fresh last ns) a b) :
      Laid src extra (.stmts fresh last (.mk span layout none (.comment text) :: ns)) a b
  | stmt {fresh fresh' : Bool} {last last' : Lexeme} {n : Node} {ns : List Node}
      {a m e b start : Nat} {gap ms : List Mark} (hr : Reach src a gap m)
      (hg : ∀ m ∈ gap, m.isGap = true)
      (hend : if fresh then last.endsLine = false else ∃ m ∈ gap, m.ends last.endsLine = true)
      (hn : Laid src extra (.line n) m e) (hm : Reach src m (ms ++ [.lexeme start last']) e)
      (hsync : Sync src m) (hlast : last'.isSemicolon = false)
      (hfresh : fresh' = true → n.kind = .caseClause)
      (h : Laid src extra (.stmts fresh' last' ns) e b) :
      Laid src extra (.stmts fresh last (n :: ns)) a b
  | plain {n : Node} {a b : Nat} (hk : n.kind.isPlain = true) (hl : n.layout.Sound)
      (h : Laid src extra (.node n) a b) : Laid src extra (.line n) a b
  | clause {span hspan : Option Span} {layout hlayout : Layout} {ps tail : List Piece} {shape : Shape}
      {body : List Node} {a h b start : Nat} {ms : List Mark} (hl : layout.trailing = none)
      (hk : shape.kind ≠ .block) (hsync : Sync src a)
      (hh : Laid src extra (.pieces shape.children ps) a h)
      (ht : tail = [] ∨ ∃ text, IsNote text ∧ tail = [.text (" " ++ text)])
      (hm : Reach src a (ms ++ [.lexeme start .colon]) h)
      (hb : Laid src extra (.stmts true .colon body) h b) :
      Laid src extra (.line (.mk span layout none
        (.caseClause (.mk hspan hlayout (some (ps ++ tail)) shape) body))) a b
  | label {span : Option Span} {layout : Layout} {name : Node} {a b : Nat} (hl : layout.Sound)
      (hn : Labels src extra name a b) :
      Laid src extra (.line (.mk span layout none (.labeled name none))) a b
  | labeled {span : Option Span} {layout : Layout} {name inside : Node} {a m q b : Nat}
      {gap : List Mark} (hl : layout.Sound) (hn : Labels src extra name a m) (hr : Reach src m gap q)
      (hg : ∀ m ∈ gap, m.isGap = true) (hi : Laid src extra (.line inside) q b)
      (hk : inside.kind.isPlain = true ∨ inside.kind = .labeled) :
      Laid src extra (.line (.mk span layout none (.labeled name (some inside)))) a b

variable {src : List Char} {extra : Nat → List Lexeme} {a b : Nat} {n : Node}

lemma Labels.le (h : Labels src extra n a b) : a ≤ b := by
  cases h with
  | mk _ _ hm _ hr _ hc => exact hm.le.trans (hr.le.trans (Nat.le_succ _))

namespace Laid

lemma le {part : Part} (h : Laid src extra part a b) : a ≤ b := by
  induction h with
  | woven _ _ ih => exact ih
  | block _ _ _ _ _ _ _ _ _ _ ih => omega
  | done => exact Nat.le_refl _
  | text _ hr _ _ ih => exact hr.le.trans ih
  | child _ _ _ ihn ih => exact ihn.trans ih
  | ended hr => exact hr.le
  | comment _ _ _ _ ih => exact ih
  | stmt hr _ _ _ _ _ _ _ _ ihn ih => exact hr.le.trans (ihn.trans ih)
  | plain _ _ _ ih => exact ih
  | clause _ _ _ _ _ _ _ ihh ihb => exact ihh.trans ihb
  | label _ hn => exact hn.le
  | labeled _ hn hr _ _ _ ih => exact hn.le.trans (hr.le.trans ih)

lemma layout_sound (h : Laid src extra (.line n) a b) (hk : n.kind ≠ .caseClause) :
    n.layout.Sound := by
  cases h with
  | plain _ hl => exact hl
  | clause => simp [Node.kind, Node.shape, Shape.kind] at hk
  | label hl => exact hl
  | labeled hl => exact hl

lemma pieces_eq_none (h : Laid src extra (.line n) a b) (hk : n.kind = .labeled) :
    n.pieces = none := by
  cases h with
  | plain hp => simp [hk, Kind.isPlain] at hp
  | clause => rfl
  | label => rfl
  | labeled => rfl

end Laid

end ParallelTests
