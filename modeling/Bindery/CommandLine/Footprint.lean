import Bindery.CommandLine.Run

/-!
# Footprints

The paths at which files decide what a command does. Those of an artifact's sources come from a
configuration, so the paths to that one come first.
-/

namespace Bindery.CommandLine

/-- The paths at which a configuration is looked for. -/
def configurationFootprint (workingPath : Path) : Option String → List Path
  | some named =>
    let p := Path.ofString named
    p :: Configuration.fileIn p :: (p.parent?.map Configuration.fileIn).toList
  | none => workingPath.ancestors.map Configuration.fileIn

/-- The paths of an artifact, of the file it is built in and of all it may be made of. -/
def Plan.footprint (p : Plan) : List Path :=
  p.artifact :: Builder.stagingPath p.artifact ::
    p.ids.flatMap fun id => p.locator.primary.resolve id :: (p.locator.fallbackPath? id).toList

/-- The paths that matter before a configuration is known. -/
def Invocation.firstFootprint (workingPath : Path) (i : Invocation) : List Path :=
  match i.command with
  | .build .. | .check .. => configurationFootprint workingPath i.configuration
  | .inspect artifact _ => [Path.ofString artifact]
  | .checksum files => files.map Path.ofString

/-- The paths that matter once the files at the first ones are known. -/
def Invocation.secondFootprint (fs : FileSystem) (i : Invocation) : List Path :=
  match i.command with
  | .build kind ids output _ | .check kind ids output =>
    match Plan.make fs i.configuration kind ids output with
    | .ok p => p.footprint
    | .error _ => []
  | _ => []

def usageText : String :=
  "Usage: bindery [--quiet] [--verbose] [--config <path>] <command>\n\n" ++
  "  build <kind> <id>... [--output <path>] [--force]\n" ++
  "  check <kind> <id>... [--output <path>]\n" ++
  "  inspect <artifact> [--format text|json]\n" ++
  "  checksum <file>...\n"

end Bindery.CommandLine
