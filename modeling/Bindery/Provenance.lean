import Bindery.Metadata.Basic
import Bindery.Time.Calendar

/-!
# Provenance

Who built an artifact, when and for which distribution: five entries under one stem. Stamping
again replaces them.
-/

namespace Bindery

/-- Where provenance is written and who writes it. -/
structure Provenance where
  stem : String
  generator : String
  deriving DecidableEq

/-- What there is to say about a build. -/
structure Build.Occasion where
  time : String
  codeName : String
  version : String
  engineVersion : String
  deriving DecidableEq

namespace Provenance

def key (p : Provenance) (field : String) : String := p.stem ++ "/" ++ field

def fields (p : Provenance) (o : Build.Occasion) : List (String × String) :=
  [("generator", p.generator), ("modified_time", o.time),
    ("distribution_code_name", o.codeName), ("distribution_version", o.version),
    ("engine_version", o.engineVersion)]

def stamp (p : Provenance) (o : Build.Occasion) (entries : SortedMap String String) :
    SortedMap String String :=
  (p.fields o).foldl (fun m f => m.insert (p.key f.1) f.2) entries

end Provenance

/-- The text of the time of a build, `offset` seconds east of the meridian. -/
def Build.timeText (seconds offset : Int) : String := (Time.Calendar.ofSeconds seconds offset).text

end Bindery
