import Bindery.Arena.Access
import Bindery.Artifact.Error
import Bindery.Metadata.Codec

/-!
# Reading artifacts

The metadata of an artifact can be read from its file alone (`metadataOf`), or the whole artifact
can be mapped (`Artifact.load`); both check the header first.
-/

namespace Bindery

/-- An artifact that is mapped for reading. -/
structure Artifact where
  arena : Arena
  header : Artifact.Header
  metadata : Metadata

namespace Artifact

/-- The metadata that bytes make up. What comes behind it is left alone. -/
def decodeMetadata (bytes : List UInt8) : Except Error Metadata :=
  match Metadata.decode? bytes with
  | some (m, _) => .ok m
  | none => .error .malformedMetadata

def metadataOf (fs : FileSystem) (path : Path) : Except Error Metadata :=
  match fs.openToRead path with
  | .error fault => .error (.file path fault)
  | .ok (.directory _) => .error (.file path .isDirectory)
  | .ok (.file id) =>
    let content := (fs.file id).content
    if content.size < headerSize then .error (.invalidHeader path .shorterThanHeader)
    else
      let header := Header.decode (content.slice 0 headerSize)
      match header.check path content.size with
      | .error e => .error e
      | .ok () =>
        decodeMetadata (content.slice header.metadataOffset.toNat header.metadataLength.toNat)

def readHeader (s : Arena.State) : Except Error Header :=
  match s.get headerLayout (.ofPosition 0) with
  | .ok bytes => .ok (.decode bytes)
  | .error (.invalidOffset ..) => .error (.invalidHeader s.arena.path .shorterThanHeader)
  | .error e => .error (.arena e)

/-- The artifact of a mapped file. -/
def ofMapped (s : Arena.State) : Except Error Artifact :=
  match readHeader s with
  | .error e => .error e
  | .ok header =>
    match header.check s.arena.path s.arena.size with
    | .error e => .error e
    | .ok () =>
      match s.getAll .byte ⟨header.metadataOffset⟩ header.metadataLength.toNat with
      | .error e => .error (.arena e)
      | .ok bytes =>
        match decodeMetadata bytes with
        | .error e => .error e
        | .ok metadata => .ok ⟨s.arena, header, metadata⟩

def load (fs : FileSystem) (path : Path) : Except Error Artifact :=
  match Arena.openToRead.run ⟨fs, .closed path⟩ with
  | .error e _ => .error (.arena e)
  | .ok () s => ofMapped s

def payloadRoot (a : Artifact) : Arena.Offset := ⟨a.header.payloadRoot⟩

end Artifact

end Bindery
