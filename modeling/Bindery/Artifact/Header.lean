import Bindery.Arena.Offset
import Bindery.LittleEndian
import Bindery.Text.Utf8

/-!
# The header of an artifact

The first 64 bytes of an artifact: eight bytes that mark it as one, the version of the format, a
tag for the kind of payload, where the metadata lies, where the payload's root lies, and bytes kept
for later. All numbers take four bytes, lowest first.
-/

namespace Bindery.Artifact

/-- The bytes that every artifact begins with. -/
def magic : List UInt8 := Text.encode "INKSTONE"

def formatVersion : UInt32 := 1

def headerSize : Nat := 64

/-- How a header lies in an arena. -/
def headerLayout : Arena.Layout := .packed headerSize

structure Header where
  magic : List UInt8
  formatVersion : UInt32
  payloadKind : UInt32
  metadataOffset : UInt32
  metadataLength : UInt32
  payloadRoot : UInt32
  reserved : List UInt8
  deriving DecidableEq

namespace Header

/-- The header of an artifact in which nothing has been placed yet. -/
def ofKind (payloadKind : UInt32) : Header where
  magic := Artifact.magic
  formatVersion := Artifact.formatVersion
  payloadKind
  metadataOffset := 0
  metadataLength := 0
  payloadRoot := Arena.Offset.null.raw
  reserved := List.replicate 36 0

def wordBytes (w : UInt32) : List UInt8 := LittleEndian.ofNat 4 w.toNat

/-- The word at a place among bytes. -/
def wordAt (bytes : List UInt8) (i : Nat) : UInt32 :=
  UInt32.ofNat (LittleEndian.toNat ((bytes.drop i).take 4))

def encode (h : Header) : List UInt8 :=
  h.magic ++ wordBytes h.formatVersion ++ wordBytes h.payloadKind ++ wordBytes h.metadataOffset ++
    wordBytes h.metadataLength ++ wordBytes h.payloadRoot ++ h.reserved

/-- The header that 64 bytes make up. -/
def decode (bytes : List UInt8) : Header where
  magic := bytes.take 8
  formatVersion := wordAt bytes 8
  payloadKind := wordAt bytes 12
  metadataOffset := wordAt bytes 16
  metadataLength := wordAt bytes 20
  payloadRoot := wordAt bytes 24
  reserved := bytes.drop 28

/-- The text of bytes as a list of numbers. -/
def byteListText (bytes : List UInt8) : String :=
  "[" ++ String.intercalate ", " (bytes.map fun b => toString b.toNat) ++ "]"

def describe (h : Header) : String :=
  let word (w : UInt32) := "U32(" ++ toString w.toNat ++ ")"
  "ArtifactHeader \x7b magic: " ++ byteListText h.magic ++
    ", format_version: " ++ word h.formatVersion ++
    ", payload_kind: " ++ word h.payloadKind ++
    ", metadata_offset: " ++ word h.metadataOffset ++
    ", metadata_len: " ++ word h.metadataLength ++
    ", payload_root: " ++ word h.payloadRoot ++
    ", reserved: " ++ byteListText h.reserved ++ " \x7d"

end Header

end Bindery.Artifact
