import ParallelTests.Main
import ParallelTests.Proofs.Edit.Complete
import ParallelTests.Proofs.Edit.Effect
import ParallelTests.Proofs.Edit.EndToEnd
import ParallelTests.Proofs.Edit.Exact
import ParallelTests.Proofs.Edit.Outside
import ParallelTests.Proofs.Edit.Redeclare
import ParallelTests.Proofs.Edit.Table
import ParallelTests.Proofs.Inverse.Body
import ParallelTests.Proofs.Module.Cover
import ParallelTests.Proofs.Parse.Attached
import ParallelTests.Proofs.Parse.Brackets
import ParallelTests.Proofs.Parse.Splices
import ParallelTests.Proofs.Print.Comments
import ParallelTests.Proofs.Print.LineStarts
import ParallelTests.Proofs.Run.Failures
import ParallelTests.Proofs.Run.Schedule
import ParallelTests.Proofs.Run.Tally
import ParallelTests.Proofs.Scan.Tiles
import ParallelTests.Proofs.Semicolon.Automatic
import ParallelTests.Proofs.Semicolon.Outline
import ParallelTests.Proofs.Types.Classify
import ParallelTests.Proofs.Types.Predeclared
import ParallelTests.Proofs.Types.Table
import ParallelTests.Session
import ParallelTests.Proofs.Recast.Course
import ParallelTests.Proofs.Recast.Reread
