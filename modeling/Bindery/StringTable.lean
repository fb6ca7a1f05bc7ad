import Bindery.Artifact.Builder
import Bindery.Source

/-!
# String tables

The payload that sources are compiled into: for every source its id and its text, two strings,
and an array of pairs of their offsets. The root is the offset of the array and its length.
-/

namespace Bindery.StringTable

/-- The tag of artifacts whose payload is a string table. -/
def payloadKind : UInt32 := 1

abbrev Entry := String × String

def wordPair (a b : UInt32) : List UInt8 :=
  LittleEndian.ofNat 4 a.toNat ++ LittleEndian.ofNat 4 b.toNat

def ofWordPair (bytes : List UInt8) : UInt32 × UInt32 :=
  (UInt32.ofNat (LittleEndian.toNat (bytes.take 4)),
    UInt32.ofNat (LittleEndian.toNat ((bytes.drop 4).take 4)))

/-- Reads the texts of the sources that are loaded. A source whose file is no text, or has a zero
byte in it, is not loaded after all and has no entry. -/
def gather (fs : FileSystem) : List Source → List Entry × List Source
  | [] => ([], [])
  | s :: rest =>
    let (entries, sources) := gather fs rest
    match s.path, s.loaded with
    | some path, true =>
      match fs.readText path with
      | .ok text =>
        if '\x00' ∈ text.toList then (entries, { s with loaded := false } :: sources)
        else ((s.id, text) :: entries, s :: sources)
      | .error _ => (entries, { s with loaded := false } :: sources)
    | _, _ => (entries, s :: sources)

/-- Writes the strings of entries and answers the pairs of their offsets. -/
def writeStrings {σ : Type} : List Entry → Build.Action σ (List (List UInt8))
  | [] => pure []
  | (id, text) :: rest => do
    let id ← Build.onArena (Arena.pushText id)
    let text ← Build.onArena (Arena.pushText text)
    let pairs ← writeStrings rest
    pure (wordPair id.raw text.raw :: pairs)

/-- Writes a string table and answers its root. -/
def write {σ : Type} (entries : List Entry) : Build.Action σ Arena.Offset := do
  let pairs ← writeStrings entries
  let first ←
    if pairs = [] then pure Arena.Offset.null
    else Build.onArena (Arena.pushAll .pair32 pairs)
  if Arena.Offset.null.position < pairs.length then
    throw (.unwritable (toString pairs.length ++ " entries exceed the table limit"))
  Build.onArena (Arena.push .pair32 (wordPair first.raw (UInt32.ofNat pairs.length)))

/-- Cuts bytes into pairs of words. -/
def pairsOf : Nat → List UInt8 → List (UInt32 × UInt32)
  | 0, _ => []
  | n + 1, bytes => ofWordPair (bytes.take 8) :: pairsOf n (bytes.drop 8)

def read (fs : FileSystem) (a : Artifact) : Except Artifact.Error (List Entry) := do
  let s : Arena.State := ⟨fs, a.arena⟩
  let call {α : Type} (r : Except Arena.Error α) : Except Artifact.Error α := r.mapError .arena
  let root ← call (s.get .pair32 a.payloadRoot)
  let (first, length) := ofWordPair root
  if length = 0 then return []
  let bytes ← call (s.getAll .pair32 ⟨first⟩ length.toNat)
  (pairsOf length.toNat bytes).mapM fun (id, text) => do
    let id ← call (s.getText ⟨id⟩)
    let text ← call (s.getText ⟨text⟩)
    pure (id, text)

end Bindery.StringTable
