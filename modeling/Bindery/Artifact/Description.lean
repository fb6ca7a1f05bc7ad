import Bindery.Artifact.Reader
import Bindery.Text.Quoted

/-!
# The description of an artifact
-/

namespace Bindery.Artifact

/-- Path and header of an artifact. -/
def describe (a : Artifact) : String :=
  "Artifact \x7b path: " ++ Text.quoted a.arena.path.bytes ++ ", header: " ++ a.header.describe ++
    ", .. \x7d"

end Bindery.Artifact
