import Bindery.Arena.Error
import Bindery.Artifact.Header

/-!
# Why an artifact cannot be built or read
-/

namespace Bindery.Artifact

inductive HeaderFlaw where
  | shorterThanHeader
  | missingMagic
  /-- The metadata is not in the file. -/
  | metadataOutside (offset length : UInt32) (fileLength : Nat)
  deriving DecidableEq

def HeaderFlaw.message : HeaderFlaw → String
  | shorterThanHeader => "file shorter than header"
  | missingMagic => "missing magic bytes"
  | metadataOutside offset length fileLength =>
    "metadata block " ++ toString offset.toNat ++ "+" ++ toString length.toNat ++
      " outside file of " ++ toString fileLength ++ " bytes"

inductive Error where
  | arena (e : Arena.Error)
  | file (path : Path) (fault : Fault)
  | invalidHeader (path : Path) (flaw : HeaderFlaw)
  | versionMismatch (path : Path) (actual : UInt32)
  /-- The metadata's bytes are no metadata. -/
  | malformedMetadata
  /-- The payload cannot be written down. -/
  | unwritable (reason : String)
  /-- The artifact does not fit even at the largest capacity tried. -/
  | capacityLimit (capacity : Nat)
  deriving DecidableEq

namespace Error

def message : Error → String
  | arena e => e.message
  | file path fault => "build I/O error at " ++ path.display ++ ": " ++ fault.message
  | invalidHeader path flaw =>
    "invalid artifact header in " ++ path.display ++ ": " ++ flaw.message
  | versionMismatch path actual =>
    "version mismatch in " ++ path.display ++ ": expected " ++ toString formatVersion.toNat ++
      ", got " ++ toString actual.toNat
  | malformedMetadata => "serialization error: malformed metadata"
  | unwritable reason => "serialization error: " ++ reason
  | capacityLimit capacity => "artifact does not fit in " ++ toString capacity ++ " bytes"

/-- Whether a larger arena could help. -/
def isExhausted : Error → Bool
  | arena e => e.isExhausted
  | _ => false

end Error

/-- Checks a header's marks, and that the metadata lies behind the header in a file of so many
bytes. -/
def Header.check (h : Header) (path : Path) (fileLength : Nat) : Except Error Unit :=
  if h.magic ≠ Artifact.magic then .error (.invalidHeader path .missingMagic)
  else if h.formatVersion ≠ Artifact.formatVersion then
    .error (.versionMismatch path h.formatVersion)
  else if h.metadataOffset.toNat < headerSize ∨ h.metadataLength = 0 ∨
      fileLength < h.metadataOffset.toNat + h.metadataLength.toNat then
    .error (.invalidHeader path (.metadataOutside h.metadataOffset h.metadataLength fileLength))
  else .ok ()

end Bindery.Artifact
