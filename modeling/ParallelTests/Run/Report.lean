import ParallelTests.TestFunction.Outcome

namespace ParallelTests

structure RunReport where
  units : List UnitReport
  deriving DecidableEq, Repr

namespace RunReport

/-- Reports with one id keep their order. -/
def ofUnits (reports : List UnitReport) : RunReport :=
  ⟨reports.mergeSort fun a b => decide (a.unitId ≤ b.unitId)⟩

def total (r : RunReport) (s : Status) : Nat := r.units.foldl (fun n u => n + u.count s) 0

def totals (r : RunReport) : List (Status × Nat) := Status.all.map fun s => (s, r.total s)

end RunReport

end ParallelTests
