namespace ParallelTests

inductive Bracket
  | round
  | square
  | curly
  deriving DecidableEq, Repr

namespace Bracket

def opener : Bracket → Char
  | round => '('
  | square => '['
  | curly => '{'

def closer : Bracket → Char
  | round => ')'
  | square => ']'
  | curly => '}'

end Bracket

inductive Keyword
  | kwBreak | kwCase | kwChan | kwConst | kwContinue | kwDefault | kwDefer | kwElse | kwFallthrough
  | kwFor | kwFunc | kwGo | kwGoto | kwIf | kwImport | kwInterface | kwMap | kwPackage | kwRange
  | kwReturn | kwSelect | kwStruct | kwSwitch | kwType | kwVar
  deriving DecidableEq, Repr

namespace Keyword

def text : Keyword → String
  | kwBreak => "break"
  | kwCase => "case"
  | kwChan => "chan"
  | kwConst => "const"
  | kwContinue => "continue"
  | kwDefault => "default"
  | kwDefer => "defer"
  | kwElse => "else"
  | kwFallthrough => "fallthrough"
  | kwFor => "for"
  | kwFunc => "func"
  | kwGo => "go"
  | kwGoto => "goto"
  | kwIf => "if"
  | kwImport => "import"
  | kwInterface => "interface"
  | kwMap => "map"
  | kwPackage => "package"
  | kwRange => "range"
  | kwReturn => "return"
  | kwSelect => "select"
  | kwStruct => "struct"
  | kwSwitch => "switch"
  | kwType => "type"
  | kwVar => "var"

def all : List Keyword :=
  [kwBreak, kwCase, kwChan, kwConst, kwContinue, kwDefault, kwDefer, kwElse, kwFallthrough, kwFor,
    kwFunc, kwGo, kwGoto, kwIf, kwImport, kwInterface, kwMap, kwPackage, kwRange, kwReturn,
    kwSelect, kwStruct, kwSwitch, kwType, kwVar]

def ofText? (text : String) : Option Keyword :=
  all.find? fun k => k.text = text

theorem text_of_ofText? {text : String} {k : Keyword} (h : ofText? text = some k) :
    k.text = text := by
  simpa using List.find?_some h

end Keyword

inductive Arith
  | add | sub | mul | quo | rem | and | or | xor | shl | shr | andNot
  deriving DecidableEq, Repr

namespace Arith

def chars : Arith → List Char
  | add => ['+']
  | sub => ['-']
  | mul => ['*']
  | quo => ['/']
  | rem => ['%']
  | and => ['&']
  | or => ['|']
  | xor => ['^']
  | shl => ['<', '<']
  | shr => ['>', '>']
  | andNot => ['&', '^']

end Arith

inductive Operator
  | arith (op : Arith)
  | assignWith (op : Arith)
  | assign | define | land | lor | arrow | inc | dec | eq | ne | le | ge | lt | gt | not
  | comma | period | colon | tilde | ellipsis
  | opening (bracket : Bracket)
  | closing (bracket : Bracket)
  deriving DecidableEq, Repr

namespace Operator

def chars : Operator → List Char
  | arith op => op.chars
  | assignWith op => op.chars ++ ['=']
  | assign => ['=']
  | define => [':', '=']
  | land => ['&', '&']
  | lor => ['|', '|']
  | arrow => ['<', '-']
  | inc => ['+', '+']
  | dec => ['-', '-']
  | eq => ['=', '=']
  | ne => ['!', '=']
  | le => ['<', '=']
  | ge => ['>', '=']
  | lt => ['<']
  | gt => ['>']
  | not => ['!']
  | comma => [',']
  | period => ['.']
  | colon => [':']
  | tilde => ['~']
  | ellipsis => ['.', '.', '.']
  | opening b => [b.opener]
  | closing b => [b.closer]

def text (o : Operator) : String := String.ofList o.chars

def all : List Operator :=
  [assignWith .shl, assignWith .shr, assignWith .andNot, ellipsis,
    land, lor, arrow, inc, dec, eq, ne, le, ge, define,
    assignWith .add, assignWith .sub, assignWith .mul, assignWith .quo, assignWith .rem,
    assignWith .and, assignWith .or, assignWith .xor, arith .shl, arith .shr, arith .andNot,
    arith .add, arith .sub, arith .mul, arith .quo, arith .rem, arith .and, arith .or, arith .xor,
    lt, gt, assign, not,
    opening .round, closing .round, opening .square, closing .square, opening .curly,
    closing .curly, comma, period, colon, tilde]

theorem mem_all (o : Operator) : o ∈ all := by
  rcases o with (_ | _ | _ | _ | _ | _ | _ | _ | _ | _ | _) |
    (_ | _ | _ | _ | _ | _ | _ | _ | _ | _ | _) | _ | _ | _ | _ | _ | _ | _ | _ | _ | _ | _ | _ |
    _ | _ | _ | _ | _ | _ | _ | (_ | _ | _) | (_ | _ | _) <;> decide

def ofHead? (cs : List Char) : Option Operator :=
  all.find? fun o => o.chars.isPrefixOf cs

def assigns : Operator → Bool
  | assign | define | assignWith _ => true
  | _ => false

end Operator

inductive Lexeme
  | ident (name : String)
  | keyword (word : Keyword)
  | number (text : String)
  | rune (text : String)
  | string (text : String)
  | op (op : Operator)
  | semicolon (written : Bool)
  deriving DecidableEq, Repr

namespace Lexeme

def text : Lexeme → String
  | ident name => name
  | keyword word => word.text
  | number text | rune text | string text => text
  | op o => o.text
  | semicolon written => if written then ";" else ""

def ofWord (word : String) : Lexeme :=
  match Keyword.ofText? word with
  | some k => keyword k
  | none => ident word

/-- Lexemes after which the end of a line ends a statement. -/
def endsLine : Lexeme → Bool
  | ident _ | number _ | rune _ | string _ => true
  | keyword .kwBreak | keyword .kwContinue | keyword .kwFallthrough | keyword .kwReturn => true
  | op .inc | op .dec | op (.closing _) => true
  | _ => false

@[simp] theorem text_ofWord (word : String) : (ofWord word).text = word := by
  unfold ofWord
  split
  · next h => exact Keyword.text_of_ofText? h
  · rfl

end Lexeme

/-- A lexeme where it stands. `line` and `column` are those of its first character, `endLine` is
that of its last. -/
structure Token where
  lexeme : Lexeme
  start : Nat
  stop : Nat
  line : Nat
  column : Nat
  endLine : Nat
  deriving DecidableEq, Repr

namespace Token

def text (t : Token) : String := t.lexeme.text

def isOp (t : Token) (o : Operator) : Bool := t.lexeme = .op o

def isKeyword (t : Token) (k : Keyword) : Bool := t.lexeme = .keyword k

def isSemicolon (t : Token) : Bool :=
  match t.lexeme with
  | .semicolon _ => true
  | _ => false

def isAutomatic (t : Token) : Bool := t.lexeme = .semicolon false

def shown (t : Token) : String := if t.isAutomatic then ";" else t.text

end Token

structure Comment where
  text : String
  start : Nat
  stop : Nat
  line : Nat
  column : Nat
  endLine : Nat
  deriving DecidableEq, Repr

end ParallelTests
