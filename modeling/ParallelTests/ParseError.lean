import ParallelTests.Source
import ParallelTests.Text.Quoted
import ParallelTests.Token.Basic

namespace ParallelTests

open Text

inductive Reason
  | strayCharacter (c : Char)
  | openComment
  | unexpectedBracket (bracket : Bracket)
  | unclosedBracket (bracket : Bracket)
  | noPackage
  | endOfFile
  | expectedOperator (op : Operator) (found : Option String)
  | expectedIdentifier (found : String)
  | notTopLevel (found : String)
  | malformedImport
  | mixedParameters
  | missingParameterType
  | expectedExpression
  | expectedSemicolon (found : String)
  | expectedColon
  | expectedBlock
  | expectedElse
  | expectedRangeOperator
  | rangeVariables
  | malformedAssignment
  deriving DecidableEq, Repr

namespace Reason

def message : Reason → String
  | strayCharacter c => "unexpected character " ++ quoted c.toString
  | openComment => "comment not terminated"
  | unexpectedBracket b => "unexpected " ++ quoted b.closer.toString
  | unclosedBracket b => "unclosed " ++ quoted b.opener.toString
  | noPackage => "expected package clause"
  | endOfFile => "unexpected end of file"
  | expectedOperator op found =>
    "expected " ++ quoted op.text ++ ", found " ++
      (match found with
        | some text => quoted text
        | none => "end of file")
  | expectedIdentifier found => "expected identifier, found " ++ quoted found
  | notTopLevel found => "unexpected " ++ quoted found ++ " at top level"
  | malformedImport => "malformed import spec"
  | mixedParameters => "mixed named and unnamed parameters"
  | missingParameterType => "missing parameter type"
  | expectedExpression => "expected expression"
  | expectedSemicolon found => "expected ';', found " ++ quoted found
  | expectedColon => "expected ':' after case"
  | expectedBlock => "expected block"
  | expectedElse => "expected if statement or block after else"
  | expectedRangeOperator => "expected ':=' or '=' before range"
  | rangeVariables => "range clause binds one or two variables"
  | malformedAssignment => "malformed assignment"

end Reason

structure Issue where
  reason : Reason
  offset : Nat
  deriving DecidableEq, Repr

structure ParseError where
  path : String
  line : Nat
  column : Int
  reason : Reason
  deriving DecidableEq, Repr

namespace ParseError

def message (e : ParseError) : String :=
  e.path ++ ":" ++ toString e.line ++ ":" ++ toString e.column ++ ": " ++ e.reason.message

end ParseError

def Source.locate (s : Source) (i : Issue) : ParseError :=
  ⟨s.path, s.lineOf i.offset, s.columnOf i.offset, i.reason⟩

end ParallelTests
