import ParallelTests.Text.CharClass

namespace ParallelTests.Text

def dropEndWhile (p : Char → Bool) (cs : List Char) : List Char :=
  (cs.reverse.dropWhile p).reverse

def trimEnd (p : Char → Bool) (s : String) : String :=
  String.ofList (dropEndWhile p s.toList)

def trim (p : Char → Bool) (s : String) : String :=
  String.ofList (dropEndWhile p (s.toList.dropWhile p))

def startsWith (s start : String) : Bool :=
  start.toList.isPrefixOf s.toList

def endsWith (s stop : String) : Bool :=
  stop.toList.isSuffixOf s.toList

theorem endsWith_iff {s stop : String} :
    endsWith s stop = true ↔ stop.toList <:+ s.toList := by
  simp [endsWith]

end ParallelTests.Text
