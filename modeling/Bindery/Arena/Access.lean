import Bindery.Arena.Basic

/-!
# Reading and writing at offsets

Every access first checks that its bytes lie in the allocated region (`positionOf`). Values may
only be reached at multiples of their alignment. A text has no stored length and ends at the first
zero byte.
-/

namespace Bindery.Arena

/-- The position of `len` allocated bytes at an offset. -/
def positionOf (a : Arena) (offset : Offset) (len : Nat) : Except Error Nat :=
  if !a.isOpen then .error .notOpen
  else if offset.isNull then .error (.invalidOffset offset len a.size)
  else if a.size < offset.position + len then .error (.invalidOffset offset len a.size)
  else .ok offset.position

/-- The size of so many values, at most the largest 64-bit number. -/
def spanLength (layout : Layout) (count : Nat) : Nat := min (layout.size * count) maxWord

namespace State

def bytes (s : State) (pos n : Nat) : List UInt8 :=
  match s.arena.mapping with
  | some m => (s.fs.file m.file).content.slice pos n
  | none => []

/-- The bytes from a position to the first zero byte, looking at no more than `n`. -/
def bytesToNul? (content : FileSystem.Content) (pos : Nat) : Nat → Option (List UInt8)
  | 0 => none
  | n + 1 =>
    if content.byteAt pos = 0 then some []
    else (bytesToNul? content (pos + 1) n).map (content.byteAt pos :: ·)

/-- The bytes of `len` allocated bytes at an aligned offset. -/
def readRange (s : State) (layout : Layout) (offset : Offset) (len : Nat) :
    Except Error (List UInt8) :=
  match s.arena.positionOf offset len with
  | .error e => .error e
  | .ok pos =>
    if pos % layout.align = 0 then .ok (s.bytes pos len)
    else .error (.invalidOffset offset 0 s.arena.size)

def get (s : State) (layout : Layout) (offset : Offset) : Except Error (List UInt8) :=
  s.readRange layout offset layout.size

def getAll (s : State) (layout : Layout) (offset : Offset) (count : Nat) :
    Except Error (List UInt8) :=
  s.readRange layout offset (spanLength layout count)

def getText (s : State) (offset : Offset) : Except Error String :=
  match s.arena.positionOf offset 1 with
  | .error e => .error e
  | .ok pos =>
    match s.arena.mapping with
    | none => .error .notOpen
    | some m =>
      match (bytesToNul? (s.fs.file m.file).content pos (s.arena.size - pos)).bind Text.decode? with
      | some text => .ok text
      | none => .error (.invalidString offset)

def contents (s : State) : Except Error (List UInt8) :=
  if s.arena.isOpen then .ok (s.bytes 0 s.arena.size) else .error .notOpen

end State

/-- A call that only looks. -/
def look (f : State → Except Error α) : Action α := do
  match f (← get) with
  | .ok a => pure a
  | .error e => throw e

/-- Writes bytes over allocated ones at an aligned offset. -/
def writeRange (layout : Layout) (offset : Offset) (len : Nat) (bytes : List UInt8) :
    Action Unit := do
  let pos ← look fun s => s.arena.positionOf offset len
  let s ← get
  match s.arena.mapping with
  | none => throw .notOpen
  | some ⟨.readOnly, _, _⟩ => throw .readOnly
  | some ⟨.readWrite, file, _⟩ =>
    if pos % layout.align = 0 then
      set { s with fs := s.fs.writeAt file pos bytes }
    else throw (.invalidOffset offset 0 s.arena.size)

def write (layout : Layout) (offset : Offset) (value : List UInt8) : Action Unit :=
  writeRange layout offset layout.size value

def writeAll (layout : Layout) (offset : Offset) (values : List (List UInt8)) : Action Unit :=
  writeRange layout offset (spanLength layout values.length) values.flatten

end Bindery.Arena
