import ParallelTests.Run.Worker

namespace ParallelTests.Dispatch

def select (c : Config) (units : List CompilationUnit) : List CompilationUnit :=
  units.filter (·.isTestVariant c.testUnitMarker)

def skipped (c : Config) (log : Log.Logger) (units : List CompilationUnit) : List Log.Record :=
  (units.filter (!·.isTestVariant c.testUnitMarker)).map fun u =>
    log.record .debug "skipping package due to not being the test package" [("unit", .text u.id)]

def launched (log : Log.Logger) (units : List CompilationUnit) : List Log.Record :=
  units.map fun u => log.record .debug "launching worker" [("unit", .text u.id)]

def runs (c : Config) (log : Log.Logger) (units : List CompilationUnit) :
    List (Progress RunError Worker.Work UnitReport) :=
  units.map (Worker.run c log)

def outcome (runs : List (Progress RunError Worker.Work UnitReport)) :
    Except RunError (List UnitReport) :=
  runs.mapM (·.result)

def failed? (units : List CompilationUnit) (runs : List (Progress RunError Worker.Work UnitReport)) :
    Option CompilationUnit :=
  ((units.zip runs).find? fun p => match p.2.result with | .error _ => true | .ok _ => false).map (·.1)

def closing (log : Log.Logger) (units : List CompilationUnit)
    (runs : List (Progress RunError Worker.Work UnitReport)) : Log.Record :=
  match failed? units runs with
  | some u => log.record .error "worker failed" [("unit", .text u.id)]
  | none => log.record .info "workload finished" [("units", .number runs.length)]

/-- Works on the test units. The state is the texts that were written. -/
def run (c : Config) (log : Log.Logger) (units : List CompilationUnit) :
    Progress RunError (List String) (List UnitReport) :=
  match select c units with
  | [] => ⟨[], skipped c log units ++ [log.record .info "no test packages to process"], .ok []⟩
  | selected =>
    let done := runs c log selected
    ⟨done.flatMap (·.state.writes),
      skipped c log units ++ launched log selected ++ done.flatMap (·.records) ++
        [closing log selected done],
      outcome done⟩

end ParallelTests.Dispatch
