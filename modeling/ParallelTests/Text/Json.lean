import ParallelTests.Text.Quoted

/-!
JSON texts, laid out with every element and every field on lines of its own. A value is the list of
the lines it is written on.
-/

namespace ParallelTests.Text.Json

abbrev Lines := List String

def escape (c : Char) : List Char :=
  if c = '"' || c = '\\' then ['\\', c]
  else if c = '\x08' then ['\\', 'b']
  else if c = '\x0c' then ['\\', 'f']
  else if c = '\n' then ['\\', 'n']
  else if c = '\r' then ['\\', 'r']
  else if c = '\t' then ['\\', 't']
  else if c.toNat < 0x20 then '\\' :: 'u' :: hex 4 c.toNat
  else [c]

def quote (s : String) : String := String.ofList ('"' :: (s.toList.flatMap escape ++ ['"']))

def string (s : String) : Lines := [quote s]

def number (n : Nat) : Lines := [toString n]

def comma : Lines → Lines
  | [] => []
  | [line] => [line ++ ","]
  | line :: lines => line :: comma lines

def separated : List Lines → Lines
  | [] => []
  | [item] => item
  | item :: items => comma item ++ separated items

def enclose (opener closer : String) (items : List Lines) : Lines :=
  if items.isEmpty then [opener ++ closer]
  else opener :: ((separated items).map ("  " ++ ·) ++ [closer])

def array (items : List Lines) : Lines := enclose "[" "]" items

def label (key : String) : Lines → Lines
  | [] => []
  | line :: lines => (quote key ++ ": " ++ line) :: lines

def object (fields : List (String × Lines)) : Lines :=
  enclose "\x7b" "\x7d" (fields.map fun f => label f.1 f.2)

def text (value : Lines) : String := "\n".intercalate value

end ParallelTests.Text.Json
