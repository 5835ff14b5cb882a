namespace ParallelTests.Text

def upper (c : Char) : Char :=
  if c = '\u0131' then 'I' else if c = '\u017f' then 'S' else c.toUpper

def upperCase (s : String) : String := String.ofList (s.toList.map upper)

end ParallelTests.Text
