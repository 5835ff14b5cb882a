import ParallelTests.ParseError
import ParallelTests.Token.Lexer
import ParallelTests.Token.Group

namespace ParallelTests

structure TokenStream where
  source : Source
  tokens : List Token
  comments : List Comment
  groups : List TokenGroup

namespace Scan.Failure

def reason : Scan.Failure → Reason
  | openComment => .openComment
  | stray c => .strayCharacter c

end Scan.Failure

namespace TokenGroup.Failure

def issue : TokenGroup.Failure → Issue
  | unexpected b closer => ⟨.unexpectedBracket b, closer.start⟩
  | unclosed b opener => ⟨.unclosedBracket b, opener.start⟩

end TokenGroup.Failure

namespace TokenStream

def ofSource (s : Source) : Except Issue TokenStream :=
  match s.items with
  | .error e => .error ⟨e.cause.reason, e.offset⟩
  | .ok items =>
    let tokens := items.filterMap Item.token?
    match TokenGroup.ofTokens tokens with
    | .error e => .error e.issue
    | .ok groups => .ok ⟨s, tokens, items.filterMap Item.comment?, groups⟩

/-- The positions of the brackets that belong together, in the order of the opening ones. -/
def pairs (s : TokenStream) : List (Nat × Nat) := TokenGroup.pairs 0 s.groups

end TokenStream

end ParallelTests
