import ParallelTests.Config.Basic
import ParallelTests.Files.Path

namespace ParallelTests.Command

structure Arguments where
  moduleDir : Path
  config : Option Path := none
  recursive : Option Bool := none
  workers : Option Int := none
  emitNonTestFiles : Option Bool := none
  report : Option Path := none
  logLevel : Option String := none
  deriving DecidableEq, Repr

namespace Arguments

def paths (a : Arguments) : List Path := a.moduleDir :: (a.config.toList ++ a.report.toList)

def overrides (a : Arguments) : Config.Overrides where
  recursive := a.recursive
  maxWorkers := a.workers
  emitNonTestFiles := a.emitNonTestFiles
  logLevel := a.logLevel

end Arguments

end ParallelTests.Command
