import ParallelTests.Config.Section
import ParallelTests.Files.FileSystem
import ParallelTests.Toml.Document

namespace ParallelTests.Config

def fileName : String := "parallelize.toml"

/-- Where settings are looked for: in the file that is named, or else in one of the given
directory, which need not be there. -/
def location (root path : Option Path) : Path := path.getD ((root.getD {}).child fileName)

def document (fs : FileSystem) (root path : Option Path) : Except ConfigError Toml.Table :=
  let file := location root path
  match fs.read file with
  | .error .missing => if path.isSome then .error (.notFound file.text) else .ok []
  | .error .unreadable => .error (.unreadable file.text)
  | .error .notText => .error (.notText file.text)
  | .error .badName => .error (.badName file.text)
  | .ok text =>
    match Toml.parse text with
    | .ok table => .ok table
    | .error .malformed => .error (.invalidToml file.text)
    | .error .tooManyDigits => .error (.tooManyDigits file.text)

def resolve (fs : FileSystem) (root path : Option Path) : Except ConfigError Config := do
  ofSection (← sectionOf (← document fs root path))

end ParallelTests.Config
