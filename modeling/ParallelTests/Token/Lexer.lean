import ParallelTests.Source
import ParallelTests.Token.Scan

/-!
Reading a text as tokens and comments. The end of a line after a lexeme that can end a statement
gives a semicolon that is not written.
-/

namespace ParallelTests

namespace Cursor

def lastLine (at_ : Cursor) (cs : List Char) : Nat := (at_.advance cs.dropLast).line

def token (at_ : Cursor) (cs : List Char) (lexeme : Lexeme) : Token :=
  ⟨lexeme, at_.offset, at_.offset + cs.length, at_.line, at_.column, at_.lastLine cs⟩

def comment (at_ : Cursor) (cs : List Char) : Comment :=
  ⟨String.ofList cs, at_.offset, at_.offset + cs.length, at_.line, at_.column, at_.lastLine cs⟩

def semicolon (at_ : Cursor) : Token := at_.token [] (.semicolon false)

end Cursor

inductive Item
  | token (t : Token)
  | comment (c : Comment)
  deriving DecidableEq, Repr

namespace Item

def token? : Item → Option Token
  | token t => some t
  | comment _ => none

def comment? : Item → Option Comment
  | token _ => none
  | comment c => some c

end Item

namespace Lexer

structure Failure where
  cause : Scan.Failure
  offset : Nat
  deriving DecidableEq, Repr

def due (pending : Bool) (at_ : Cursor) : List Item :=
  if pending then [.token at_.semicolon] else []

def items (at_ : Cursor) (pending : Bool) : List Char → Except Failure (List Item)
  | [] => .ok (due pending at_)
  | c :: cs =>
    match Scan.first c cs with
    | .error cause => .error ⟨cause, at_.offset⟩
    | .ok ⟨kind, more⟩ =>
      let text := c :: cs.take more
      let next := at_.advance text
      match kind with
      | .newline => (items next false (cs.drop more)).map (due pending at_ ++ ·)
      | .blank => items next pending (cs.drop more)
      | .comment =>
        let ended := text.contains '\n'
        let here := if ended then due pending at_ else []
        (items next (pending && !ended) (cs.drop more)).map
          (here ++ .comment (at_.comment text) :: ·)
      | .lexeme l =>
        (items next l.endsLine (cs.drop more)).map (.token (at_.token text l) :: ·)
termination_by cs => cs.length
decreasing_by all_goals simp only [List.length_cons, List.length_drop]; omega

end Lexer

def Source.items (s : Source) : Except Lexer.Failure (List Item) :=
  Lexer.items .start false s.chars

end ParallelTests
