import ParallelTests.Command.Execute
import ParallelTests.Command.Line
import ParallelTests.Run.Json
import ParallelTests.Text.Terminal

namespace ParallelTests.Command

/-- Lines are told without control sequences, and no text of an error that was caught is told. -/
instance : Outside where
  text? _ := none
  arguments args :=
    match Request.ofArgs args with
    | .ok (.run a) => some a
    | _ => none
  echo line := String.ofList (Text.stripControls line.toList)
  json := RunReport.json

end ParallelTests.Command
