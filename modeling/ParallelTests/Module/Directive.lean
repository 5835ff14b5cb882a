import ParallelTests.Text.Trim

namespace ParallelTests.Directive

open Text

def isMark (c : Char) : Bool := c = '"' || c = '\x60'

def afterWord? (word cs : List Char) : Option (List Char) :=
  if word.isPrefixOf cs then some (cs.drop word.length) else none

def quotedPart? (mark : Char) (cs : List Char) : Option (List Char) :=
  let part := cs.takeWhile (· ≠ mark)
  if part.isEmpty || !cs.contains mark then none else some part

def path? (cs : List Char) : Option (List Char) :=
  let word := cs.takeWhile (!isSpace ·)
  let bare := if word.isEmpty then none else some word
  match cs with
  | c :: rest => if isMark c then (quotedPart? c rest).or bare else bare
  | [] => none

def here? (cs : List Char) : Option (List Char) := do
  let rest ← afterWord? "module".toList (cs.dropWhile isSpace)
  let argument := rest.dropWhile isSpace
  if argument.length < rest.length then path? argument else none

def below? : List Char → Option (List Char)
  | [] => none
  | c :: cs => if c = '\n' then (here? cs).or (below? cs) else below? cs

def modulePath? (text : String) : Option String :=
  let cs := text.toList
  ((here? cs).or (below? cs)).map fun path => trim isMark (String.ofList path)

end ParallelTests.Directive
