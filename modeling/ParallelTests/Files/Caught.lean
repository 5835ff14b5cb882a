namespace ParallelTests

/-- The text of the error that is caught at a path. It is not of the program's own making, and who runs
the program may leave it out. -/
class Caught where
  text? : String → Option String

namespace Caught

def explain [Caught] (message path : String) : String :=
  message ++ path ++ ((text? path).map (": " ++ ·)).getD ""

end Caught

end ParallelTests
