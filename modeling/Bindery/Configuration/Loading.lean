import Bindery.Configuration.Record
import Bindery.FileSystem.Operations

/-!
# Loading configurations

A configuration is a file with a fixed name. The directory it is in is named outright or found by
going up from another one, and relative roots start there.
-/

namespace Bindery.Configuration

def fileName : String := "inkstone.toml"

/-- Why there is no configuration, or not what is asked of it. -/
inductive Error where
  | unreadable (fault : Fault)
  /-- The file's text describes no configuration. -/
  | malformed
  | flawed (flaw : Flaw)
  | unknownKind (name : String)
  deriving DecidableEq

def Error.message : Error → String
  | unreadable fault => "failed to read configuration: " ++ fault.message
  | malformed => "failed to parse configuration"
  | flawed flaw => flaw.message
  | unknownKind name => "unknown resource kind '" ++ name ++ "'"

/-- The configuration that a text describes. -/
def ofText (text : String) : Except Error Configuration :=
  match (Toml.parse? text).bind ofEntries? with
  | none => .error .malformed
  | some c =>
    match c.flaw? with
    | some flaw => .error (.flawed flaw)
    | none => .ok c

def fileIn (dir : Path) : Path := dir.join (Path.ofString fileName)

def load (fs : FileSystem) (dir : Path) : Except Error Configuration :=
  match fs.readText (fileIn dir) with
  | .error fault => .error (.unreadable fault)
  | .ok text => (ofText text).map (·.anchor dir)

def locator (c : Configuration) (kind : String) : Except Error FallbackLocator :=
  match c.locator? kind with
  | some l => .ok l
  | none => .error (.unknownKind kind)

/-- The nearest directory with a configuration, from one on upwards. -/
def findDirectory? (fs : FileSystem) (start : Path) : Option Path :=
  start.ancestors.find? fun dir => fs.isFile (fileIn dir)

end Bindery.Configuration
