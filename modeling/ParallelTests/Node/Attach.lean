import ParallelTests.Node.Placed

/-!
The comments of a block. A comment on the line where the opening or the statement before it ends
goes with that; any other is a statement of its own.
-/

namespace ParallelTests

structure Occupant where
  stmt : Placed
  stop : Nat

namespace Attach

def covers (o : Occupant) (c : Comment) : Bool :=
  o.stmt.span.start ≤ c.start && c.start < o.stop

def free (comments : List Comment) (opener closer : Token) (occupants : List Occupant) :
    List Comment :=
  comments.filter fun c =>
    opener.stop ≤ c.start && c.start < closer.start && !occupants.any (covers · c)

inductive Entry
  | stmt (p : Placed)
  | comment (c : Comment)

def entries : List Placed → List Comment → List Entry
  | [], cs => cs.map .comment
  | p :: ps, [] => (p :: ps).map .stmt
  | p :: ps, c :: cs =>
    if p.span.start ≤ c.start then .stmt p :: entries ps (c :: cs)
    else .comment c :: entries (p :: ps) cs
termination_by ps cs => ps.length + cs.length

def joined : Option String → String → String
  | none, text => text
  | some before, text => before ++ " " ++ text

structure Shelf where
  stmts : List Placed
  lead : Option String
  endLine : Nat

namespace Shelf

def push (s : Shelf) (p : Placed) : Shelf :=
  let blank := !s.stmts.isEmpty && s.endLine + 1 < p.span.line
  ⟨{ p with layout := { p.layout with blankBefore := blank } } :: s.stmts, s.lead, p.span.endLine⟩

def append (s : Shelf) (c : Comment) : Shelf :=
  let endLine := max s.endLine c.endLine
  match s.stmts with
  | last :: earlier =>
    let layout := { last.layout with trailing := some (joined last.layout.trailing c.text) }
    ⟨{ last with layout := layout } :: earlier, s.lead, endLine⟩
  | [] => ⟨[], some (joined s.lead c.text), endLine⟩

def statement (c : Comment) : Placed :=
  { span := ⟨c.start, c.stop, c.line, c.column, c.endLine⟩, shape := .comment c.text }

def add (s : Shelf) : Entry → Shelf
  | .stmt p => s.push p
  | .comment c => if c.line = s.endLine then s.append c else s.push (statement c)

end Shelf

def attach (comments : List Comment) (opener closer : Token) (occupants : List Occupant) :
    List Placed × Option String :=
  let all := entries (occupants.map (·.stmt)) (free comments opener closer occupants)
  let shelf := all.foldl Shelf.add ⟨[], none, opener.line⟩
  (shelf.stmts.reverse, shelf.lead)

end Attach

end ParallelTests
