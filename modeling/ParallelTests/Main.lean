import ParallelTests.Command.Run

/-!
The program. It takes in what the paths of the command lead to, works on that, and then writes the
output, the log and the report.
-/

namespace ParallelTests.Main

def pathOf (way : List String) : String := "/" ++ "/".intercalate way

def isDirectory (way : List String) : IO Bool := do
  ((← IO.currentDir) / pathOf way).isDir

def contents (way : List String) : IO (Option String) := do
  return String.fromUTF8? (← IO.FS.readBinFile (pathOf way))

def isWanted (name : String) : Bool :=
  GoFile.isName name || name = Module.fileName || name = Config.fileName

def takeDirectory (way : List String) : Nat → Listing → IO Listing
  | 0, known => return known
  | depth + 1, known => do
    let mut known := known.putFolder way
    for entry in ← ((← IO.currentDir) / pathOf way).readDir do
      let name := entry.fileName
      let inside := way ++ [name]
      if ← isDirectory inside then
        if !Module.isSkipped name then known ← takeDirectory inside depth known
      else if isWanted name then known := known.putFile (← contents inside) inside
    return known

def takeWay (way : List String) (known : Listing) : IO Listing := do
  let mut known := known
  let mut done := []
  for name in Path.normalize way do
    done := done ++ [name]
    if ← isDirectory done then known := known.putFolder done
    else
      try
        known := known.putFile (← contents done) done
      catch _ => break
  return known

def fileSystem (a : Command.Arguments) : IO FileSystem := do
  let workDir := (Path.ofString (← IO.currentDir).toString).parts
  let start : FileSystem := ⟨.empty, workDir⟩
  let mut root ← takeWay workDir .empty
  for path in a.paths do
    root ← takeWay (start.way path) root
  let module := Path.normalize (start.way a.moduleDir)
  if ← isDirectory module then root ← takeDirectory module 256 root
  return ⟨root, workDir⟩

def tell (c : Command.Completed) : IO Unit := do
  let out ← IO.getStdout
  out.putStr c.output
  out.flush
  for line in c.told do
    IO.eprintln line

def saveReport (a : Command.Arguments) (c : Command.Completed) : IO Unit := do
  match a.report, c.failure with
  | some path, none =>
    match c.files.read path with
    | .ok text => IO.FS.writeFile path.text text
    | .error _ => pure ()
  | _, _ => pure ()

def usage : String :=
  "Usage: parallelize [--config FILE] [--recursive | --no-recursive] [--workers N] " ++
    "[--emit-non-test-files | --no-emit-non-test-files] [--report FILE] [--log-level LEVEL] MODULE_DIR"

end ParallelTests.Main

open ParallelTests in
def main (args : List String) : IO UInt32 := do
  match Command.Request.ofArgs args with
  | .error _ =>
    IO.eprintln Main.usage
    return 2
  | .ok .help =>
    IO.println Main.usage
    return 0
  | .ok (.run a) =>
    let done := Command.execute (← Main.fileSystem a) a
    Main.tell done
    Main.saveReport a done
    return UInt32.ofNat done.exitCode
