import ParallelTests.Proofs.Print.RoundTrip

namespace ParallelTests

open Scan

/-- The comments of a stream, each with the number of lexemes before it that are no semicolons. -/
def TokenStream.remarks (s : TokenStream) : List (Nat × String) :=
  s.comments.map fun c =>
    ((s.tokens.filter fun t => t.start < c.start && !t.lexeme.isSemicolon).length, c.text)

def againSource : Source :=
  .ofString "p.go" "package p\n\nfunc f() \x7b\nL: // again\n\tx()\n\tgoto L\n\x7d\n"

set_option maxRecDepth 100000 in
/-- The comment between a label and its statement is not printed. -/
theorem remarks_againSource :
    ∃ file, againSource.parse = .ok file ∧ ∃ out, file.render = .ok out ∧
      (TokenStream.ofSource againSource).toOption.map (·.remarks) = some [(9, "// again")] ∧
      (TokenStream.ofSource (.ofString "q.go" out)).toOption.map (·.remarks) = some [] := by
  have hprinted : againSource.printed? =
      some "package p\n\nfunc f() \x7b\nL:\n\tx()\n\tgoto L\n\x7d\n" := by decide +kernel
  obtain ⟨file, hp, hr⟩ := Source.of_printed? hprinted
  exact ⟨file, hp, _, hr, by decide +kernel, by decide +kernel⟩

def Text.lines (text : String) : List (List Char) :=
  let parts := text.toList.splitOn '\n'
  if parts.getLast? = some [] then parts.dropLast else parts

/-- A text with a line of white space only. -/
def Text.hasBlankLine (text : String) : Bool := (lines text).any (·.all isSpace)

def notedSource : Source :=
  .ofString "p.go" ("package p\nfunc f() \x7b\n\tswitch x \x7b\n\tcase 1:\n\t\ta()\n\t\t// note\n" ++
    "\tcase 2:\n\t\tb()\n\t\x7d\n\x7d\n")

set_option maxRecDepth 100000 in
/-- The line of the comment is taken for a blank one, and a blank line is printed behind it. -/
theorem hasBlankLine_notedSource :
    ∃ file, notedSource.parse = .ok file ∧ ∃ out, file.render = .ok out ∧ ';' ∉ notedSource.chars ∧
      Text.hasBlankLine (String.ofList notedSource.chars) = false ∧ Text.hasBlankLine out = true := by
  have hprinted : notedSource.printed? =
      some ("package p\nfunc f() \x7b\n\tswitch x \x7b\n\tcase 1:\n\t\ta()\n\t\t// note\n\n" ++
        "\tcase 2:\n\t\tb()\n\t\x7d\n\x7d\n") := by decide +kernel
  obtain ⟨file, hp, hr⟩ := Source.of_printed? hprinted
  exact ⟨file, hp, _, hr, by decide +kernel, by decide +kernel, by decide +kernel⟩

end ParallelTests
