import Bindery.Arena.Access

/-!
# Allocating in an arena

Space is handed out in order: the next allocation starts at the first multiple of its alignment
that is not below `size`. The bytes skipped and the bytes handed out are zero, whatever the file
held before.
-/

namespace Bindery.Arena

/-- The first multiple of `align` that is not below `n`. -/
def roundUp (n align : Nat) : Nat := (n + align - 1) / align * align

/-- Fails unless the arena is mapped for writing. -/
def writableMapping (a : Arena) : Except Error Mapping :=
  match a.mapping with
  | none => .error .notOpen
  | some m =>
    match m.mode with
    | .readOnly => .error .readOnly
    | .readWrite => .ok m

/-- Reserves room for so many consecutive values, all zero. -/
def allocate (layout : Layout) (count : Nat) : Action Offset := do
  if count = 0 ∨ layout.size = 0 then
    throw (.invalidArgument .zeroLength)
  let m ← look fun s => s.arena.writableMapping
  let s ← get
  let requested := spanLength layout count
  let start := roundUp s.arena.size layout.align
  if layout.size * count ≤ maxWord ∧ start + requested ≤ s.arena.capacity then
    set
      { s with
        fs := s.fs.zeroAt m.file s.arena.size (start + requested)
        arena := { s.arena with size := start + requested } }
    pure (Offset.ofPosition start)
  else throw (.exhausted requested s.arena.available)

def pushAll (layout : Layout) (values : List (List UInt8)) : Action Offset := do
  let offset ← allocate layout values.length
  writeAll layout offset values
  pure offset

def push (layout : Layout) (value : List UInt8) : Action Offset := do
  let offset ← allocate layout 1
  write layout offset value
  pure offset

/-- Puts a text and a zero byte after it. A text with a zero byte could not be read back. -/
def pushText (text : String) : Action Offset := do
  let bytes := Text.encode text
  if 0 ∈ bytes then
    throw (.invalidArgument .interiorNul)
  let offset ← allocate .byte (bytes.length + 1)
  writeAll .byte offset (bytes.map fun b => [b])
  pure offset

end Bindery.Arena
