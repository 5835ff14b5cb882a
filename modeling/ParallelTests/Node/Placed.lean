import ParallelTests.Node.Basic
import ParallelTests.Source
import ParallelTests.Token.Stretch

namespace ParallelTests

namespace Span

def ofTokens (first last : Token) : Span :=
  ⟨first.start, last.stop, first.line, first.column, last.endLine⟩

def ofToken (t : Token) : Span := ofTokens t t

def through (first last : Span) : Span :=
  ⟨first.start, last.stop, first.line, first.column, last.endLine⟩

end Span

def Stretch.span (s : Stretch) : Span := .ofTokens s.first s.last

structure Placed where
  span : Span
  shape : Shape
  pieces : Option (List Piece) := none
  layout : Layout := {}

namespace Placed

def node (p : Placed) : Node := .mk (some p.span) p.layout p.pieces p.shape

def ident (t : Token) (name : String) : Placed :=
  { span := .ofToken t, shape := .ident name, pieces := some [.text name] }

def basicLit (t : Token) : Placed :=
  { span := .ofToken t, shape := .basicLit t.text, pieces := some [.text t.text] }

end Placed

def Source.gap (src : Source) (start stop : Nat) : List Piece :=
  if start < stop then [.text (src.slice start stop)] else []

def Source.weave (src : Source) (start stop index : Nat) : List Placed → List Piece
  | [] => src.gap start stop
  | p :: ps =>
    src.gap start p.span.start ++ .child index :: src.weave p.span.stop stop (index + 1) ps

def Source.pieces (src : Source) (span : Span) (index : Nat) (children : List Placed) :
    Option (List Piece) :=
  some (src.weave span.start span.stop index children)

end ParallelTests
