import Bindery.Metadata.Basic
import Bindery.Metadata.Varint
import Bindery.Text.Utf8

/-!
# Metadata as bytes

The form in which metadata is stored: the fields one after the other, numbers as varints, a text
after its length, a map after the number of its pairs, and a byte that tells whether an optional
value is there. Readers hand back the bytes behind what they read; what follows the metadata is
no concern of theirs.
-/

namespace Bindery

/-- A text after its length. -/
def encodeText (s : String) : List UInt8 := Varint.encode (Text.encode s).length ++ Text.encode s

def decodeText? (bytes : List UInt8) : Option (String × List UInt8) := do
  let (length, bytes) ← Varint.decode? 8 bytes
  let (text, bytes) ← Varint.takeBytes? length bytes
  let text ← Text.decode? text
  some (text, bytes)

namespace Stamp

/-- The timestamp, then the checksum if there is one. -/
def encode (s : Stamp) : List UInt8 :=
  Varint.encode (Varint.fold s.timestamp.toInt) ++
    match s.checksum with
    | none => [0]
    | some c => 1 :: Varint.encode c.toNat

/-- Reads a checksum that may be missing. -/
def decodeChecksum? : List UInt8 → Option (Option UInt32 × List UInt8)
  | 0 :: bytes => some (none, bytes)
  | 1 :: bytes => (Varint.decode? 4 bytes).map fun (c, bytes) => (some (UInt32.ofNat c), bytes)
  | _ => none

def decode? (bytes : List UInt8) : Option (Stamp × List UInt8) := do
  let (timestamp, bytes) ← Varint.decode? 8 bytes
  let (checksum, bytes) ← decodeChecksum? bytes
  some (⟨Int64.ofInt (Varint.unfold timestamp), checksum⟩, bytes)

end Stamp

namespace SortedMap

/-- The number of pairs, then the pairs. -/
def encode (value : α → List UInt8) (m : SortedMap String α) : List UInt8 :=
  Varint.encode m.size ++ m.entries.flatMap fun e => encodeText e.1 ++ value e.2

/-- Reads `n` pairs into a map; of two with the same key the later stays. -/
def decodePairs? (value : List UInt8 → Option (α × List UInt8)) :
    Nat → SortedMap String α → List UInt8 → Option (SortedMap String α × List UInt8)
  | 0, m, bytes => some (m, bytes)
  | n + 1, m, bytes =>
    match decodeText? bytes with
    | none => none
    | some (key, bytes) =>
      match value bytes with
      | none => none
      | some (v, bytes) => decodePairs? value n (m.insert key v) bytes

def decode? (value : List UInt8 → Option (α × List UInt8)) (bytes : List UInt8) :
    Option (SortedMap String α × List UInt8) :=
  match Varint.decode? 8 bytes with
  | none => none
  | some (n, bytes) => decodePairs? value n .empty bytes

end SortedMap

namespace Metadata

/-- The record's engine version, distribution and stamps, then the entries. -/
def encode (m : Metadata) : List UInt8 :=
  encodeText m.record.engineVersion ++ encodeText m.record.distribution ++
    m.record.resources.encode Stamp.encode ++ m.entries.encode encodeText

def decode? (bytes : List UInt8) : Option (Metadata × List UInt8) := do
  let (engineVersion, bytes) ← decodeText? bytes
  let (distribution, bytes) ← decodeText? bytes
  let (resources, bytes) ← SortedMap.decode? Stamp.decode? bytes
  let (entries, bytes) ← SortedMap.decode? decodeText? bytes
  some (⟨⟨engineVersion, distribution, resources⟩, entries⟩, bytes)

end Metadata

end Bindery
