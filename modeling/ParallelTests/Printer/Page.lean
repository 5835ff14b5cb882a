import ParallelTests.Text.CharClass

namespace ParallelTests

structure Page where
  text : String
  line : String
  deriving DecidableEq, Repr

namespace Page

def empty : Page := ⟨"", ""⟩

def lastLine (cs : List Char) : List Char := (cs.reverse.takeWhile (· ≠ '\n')).reverse

def write (p : Page) (text : String) : Page :=
  let cs := text.toList
  let line := if cs.contains '\n' then String.ofList (lastLine cs) else p.line ++ text
  ⟨p.text ++ text, line⟩

def indent (p : Page) : String := String.ofList (p.line.toList.takeWhile Text.isIndent)

@[simp] theorem text_write (p : Page) (text : String) : (p.write text).text = p.text ++ text := rfl

end Page

end ParallelTests
