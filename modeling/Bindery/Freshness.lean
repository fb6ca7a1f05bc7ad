import Bindery.Source
import Bindery.Version

/-!
# Freshness

An artifact can be used again if nothing it was built from has changed. `Tracker.record` stamps
the sources of a build, `Tracker.check` compares such a record with the sources now and gives a
reason for every difference. Whatever cannot be seen counts as changed.
-/

namespace Bindery

/-- Why a source makes an artifact stale. -/
inductive Staleness where
  /-- It was there and is gone. -/
  | missing
  /-- It was not there, or not built, and is there now. -/
  | newlyPresent
  /-- It was modified at another time. -/
  | timestampChanged (recorded current : Int64)
  /-- It was modified at the same time and has other contents. -/
  | checksumChanged
  /-- It was no source of the artifact. -/
  | notRecorded
  /-- It is no source any more. -/
  | removed
  /-- It is there and not loaded, or has no file to look at. -/
  | unbuilt
  deriving DecidableEq

namespace Staleness

def message : Staleness → String
  | missing => "source no longer exists"
  | newlyPresent => "source appeared since last build"
  | timestampChanged recorded current =>
    "modified (recorded " ++ toString recorded.toInt ++ ", now " ++ toString current.toInt ++ ")"
  | checksumChanged => "contents changed"
  | notRecorded => "not part of last build"
  | removed => "no longer used"
  | unbuilt => "not loaded"

def name : Staleness → String
  | missing => "Missing"
  | newlyPresent => "NewlyPresent"
  | timestampChanged recorded current =>
    "TimestampChanged \x7b recorded: " ++ toString recorded.toInt ++ ", current: " ++
      toString current.toInt ++ " \x7d"
  | checksumChanged => "ChecksumChanged"
  | notRecorded => "NotRecorded"
  | removed => "Removed"
  | unbuilt => "Unbuilt"

end Staleness

structure Freshness where
  stale : List (String × Staleness)
  /-- The engine that built the artifact, if it is newer than the running one. -/
  newerEngine : Option String
  deriving DecidableEq

def Freshness.isFresh (r : Freshness) : Bool :=
  r.stale.isEmpty && r.newerEngine.isNone

/-- Who records and checks. -/
structure Tracker where
  engineVersion : String
  distribution : String
  verifyChecksums : Bool
  deriving DecidableEq

namespace Tracker

/-- The record of sources as they are now. -/
def record (t : Tracker) (fs : FileSystem) (sources : List Source) : BuildRecord :=
  sources.foldl (fun r s => r.insert s.id (s.stamp fs)) (.ofEngine t.engineVersion t.distribution)

/-- Why a source differs from its stamp, if it does. -/
def staleness? (t : Tracker) (fs : FileSystem) (stamp : Stamp) (s : Source) : Option Staleness :=
  if s.loaded && s.path.isNone then some .unbuilt
  else match s.existingPath? fs with
    | none => if stamp.isBlank then none else some .missing
    | some path =>
      if !s.loaded then some .unbuilt
      else if stamp.isBlank then some .newlyPresent
      else
        let current := (Source.timestamp? fs path).getD 0
        if current ≠ stamp.timestamp then some (.timestampChanged stamp.timestamp current)
        else if t.verifyChecksums && stamp.checksum.isSome
            && (Checksum.ofFile fs path).toOption ≠ stamp.checksum then some .checksumChanged
        else none

/-- Why a source differs from a record, if it does. -/
def reason? (t : Tracker) (fs : FileSystem) (r : BuildRecord) (s : Source) : Option Staleness :=
  match r.get? s.id with
  | some stamp => t.staleness? fs stamp s
  | none => some .notRecorded

/-- Compares a record with sources: recorded ones that are no longer used, in the order of ids,
then the sources that differ, in their own order. -/
def check (t : Tracker) (fs : FileSystem) (r : BuildRecord) (sources : List Source) :
    Freshness where
  stale :=
    (r.resources.keys.filter fun id => !sources.any (·.id = id)).map (·, .removed) ++
      sources.filterMap fun s => (t.reason? fs r s).map (s.id, ·)
  newerEngine :=
    if Version.order r.engineVersion t.engineVersion = .gt then some r.engineVersion else none

def isFresh (t : Tracker) (fs : FileSystem) (r : BuildRecord) (sources : List Source) : Bool :=
  (t.check fs r sources).isFresh

end Tracker

end Bindery
