import Bindery.Checksum.OfFile
import Bindery.Locator
import Bindery.Record

/-!
# Sources

A source is an id, the file it was found at and whether it was loaded. Its stamp records what can
be seen of the file.
-/

namespace Bindery

structure Source where
  id : String
  /-- The file that backs the source, if there is one. -/
  path : Option Path
  loaded : Bool
  deriving DecidableEq

namespace Source

/-- Looks for an id. The source is loaded if a file is found. -/
def locate (fs : FileSystem) (resolver : Resolver) (id : String) : Source :=
  let path := resolver.resolve fs id
  if fs.isFile path then ⟨id, some path, true⟩ else ⟨id, none, false⟩

/-- The path of a source if something is there now. -/
def existingPath? (fs : FileSystem) (s : Source) : Option Path := s.path.filter fs.pathExists

/-- The second in which what is at a path was last modified, as stamps hold it. -/
def timestamp? (fs : FileSystem) (p : Path) : Option Int64 := (fs.lastModified? p).map Int64.ofInt

/-- What can be seen of a source. -/
def stamp (fs : FileSystem) (s : Source) : Stamp :=
  match s.path with
  | some path =>
    match s.loaded, timestamp? fs path with
    | true, some timestamp => ⟨timestamp, (Checksum.ofFile fs path).toOption⟩
    | _, _ => .blank
  | none => .blank

end Source

end Bindery
