import Bindery.SortedMap

/-!
# Build records

What was seen of each source when an artifact was built: a stamp of the second it was last
modified in and the checksum of its contents. Second zero stands for a source that was not there,
not loaded or not a file, and makes every later build start afresh.
-/

namespace Bindery

/-- What was seen of a source. -/
structure Stamp where
  /-- The second of the last change, zero for a source that was not built. -/
  timestamp : Int64
  /-- The checksum of the contents, if they could be read. -/
  checksum : Option UInt32
  deriving DecidableEq

namespace Stamp

/-- The stamp of a source that was not built. -/
def blank : Stamp := ⟨0, none⟩

def isBlank (s : Stamp) : Bool := s.timestamp = 0

end Stamp

/-- The stamps of all sources of an artifact, by id. -/
structure BuildRecord where
  engineVersion : String
  distribution : String
  resources : SortedMap String Stamp
  deriving DecidableEq

namespace BuildRecord

def ofEngine (engineVersion distribution : String) : BuildRecord :=
  ⟨engineVersion, distribution, .empty⟩

instance : Inhabited BuildRecord := ⟨ofEngine "" ""⟩

/-- Records the stamp of a source, replacing an earlier one. -/
def insert (r : BuildRecord) (id : String) (stamp : Stamp) : BuildRecord :=
  { r with resources := r.resources.insert id stamp }

def get? (r : BuildRecord) (id : String) : Option Stamp := r.resources.get? id

end BuildRecord

end Bindery
