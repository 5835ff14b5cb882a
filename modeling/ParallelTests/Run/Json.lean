import ParallelTests.Run.Report
import ParallelTests.Text.Json

namespace ParallelTests.RunReport

open Text.Json

def strings (items : List String) : Lines := array (items.map string)

def countsLines (counts : List (Status × Nat)) : Lines :=
  object (counts.map fun c => (c.1.text, number c.2))

def outcomeLines (o : Outcome) : Lines :=
  object [("path", string o.path), ("function", string o.function), ("state", string o.status.text),
    ("messages", strings o.messages)]

def unitLines (u : UnitReport) : Lines :=
  object [("unit_id", string u.unitId), ("files", strings u.files),
    ("functions", array (u.functions.map outcomeLines)), ("counts", countsLines u.counts)]

def lines (r : RunReport) : Lines :=
  object [("units", array (r.units.map unitLines)), ("counts", countsLines r.totals)]

def json (r : RunReport) : String := Text.Json.text r.lines

end ParallelTests.RunReport
