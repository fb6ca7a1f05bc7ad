import Bindery.Artifact.Reader
import Bindery.JsonValue

/-!
# Reports on artifacts

What an artifact's header and metadata say, as lines of text or as JSON.
-/

namespace Bindery.Artifact

structure Report where
  path : String
  formatVersion : UInt32
  payloadKind : UInt32
  size : Nat
  metadata : Metadata
  deriving DecidableEq

def report (a : Artifact) : Report where
  path := a.arena.path.display
  formatVersion := a.header.formatVersion
  payloadKind := a.header.payloadKind
  size := a.arena.size
  metadata := a.metadata

namespace Report

/-- Spaces that fill a text up to a width. -/
def filling (width : Nat) (s : String) : String :=
  String.ofList (List.replicate (width - s.toList.length) ' ')

/-- Eight hexadecimal digits of a checksum. -/
def checksumText (c : UInt32) : String := JsonValue.lowerHex 8 c.toNat

def resourceLine (id : String) (stamp : Stamp) : String :=
  let timestamp := toString stamp.timestamp.toInt
  let checksum :=
    match stamp.checksum with
    | some c => checksumText c
    | none => "-"
  "  " ++ id ++ filling 24 id ++ " " ++ filling 12 timestamp ++ timestamp ++ "  " ++ checksum ++
    "\n"

def text (r : Report) : String :=
  let record := r.metadata.record
  "artifact:       " ++ r.path ++ "\n" ++
    "format:         v" ++ toString r.formatVersion.toNat ++ " (payload kind " ++
      toString r.payloadKind.toNat ++ ")\n" ++
    "size:           " ++ toString r.size ++ " bytes\n" ++
    "engine:         " ++ record.engineVersion ++ "\n" ++
    (if record.distribution = "" then "" else "distribution:   " ++ record.distribution ++ "\n") ++
    "resources:      " ++ toString record.resources.size ++ "\n" ++
    String.join (record.resources.entries.map fun e => resourceLine e.1 e.2) ++
    (if r.metadata.entries.size = 0 then ""
      else "metadata:\n" ++
        String.join (r.metadata.entries.entries.map fun e => "  " ++ e.1 ++ " = " ++ e.2 ++ "\n"))

def stampJson (s : Stamp) : JsonValue :=
  .object [("timestamp", .number s.timestamp.toInt),
    ("checksum",
      match s.checksum with
      | some c => .number c.toNat
      | none => .null)]

def json (r : Report) : JsonValue :=
  let record := r.metadata.record
  .object [("path", .string r.path), ("format_version", .number r.formatVersion.toNat),
    ("payload_kind", .number r.payloadKind.toNat), ("size", .number r.size),
    ("engine_version", .string record.engineVersion),
    ("distribution", .string record.distribution),
    ("resources", .object (record.resources.entries.map fun e => (e.1, stampJson e.2))),
    ("entries", .object (r.metadata.entries.entries.map fun e => (e.1, .string e.2)))]

end Report

end Bindery.Artifact
