import Bindery.Artifact.Reader
import Bindery.Freshness

/-!
# Freshness of artifacts
-/

namespace Bindery.Artifact

/-- Whether the artifact at a path was built from sources as they are now. One that cannot be read
is not fresh. -/
def isFresh (t : Tracker) (fs : FileSystem) (path : Path) (sources : List Source) : Bool :=
  match metadataOf fs path with
  | .ok m => t.isFresh fs m.record sources
  | .error _ => false

end Bindery.Artifact
