/-!
# Offsets into an arena

What is stored in an arena is named by its byte offset from the start, in 32 bits. The largest
32-bit number is the null offset and names nothing.
-/

namespace Bindery.Arena

/-- The size of a value and the multiple its offset has to be of. In memory it is the address that
has to be one, and a mapping is known to start at a multiple of the page size, not of more. Offset
and address come to the same for alignments up to a page, 4096 bytes at least, and it is assumed
that no value has a greater one. -/
structure Layout where
  size : Nat
  align : Nat
  align_pos : 0 < align := by decide
  align_dvd_size : align ∣ size := by decide
  deriving DecidableEq

namespace Layout

def byte : Layout := { size := 1, align := 1 }

def word16 : Layout := { size := 2, align := 2 }

def word32 : Layout := { size := 4, align := 4 }

def word64 : Layout := { size := 8, align := 8 }

/-- Two offsets, or an offset and a word of four bytes. -/
def pair32 : Layout := { size := 8, align := 4 }

/-- So many bytes that may stand anywhere. -/
def packed (n : Nat) : Layout := { size := n, align := 1, align_dvd_size := Nat.one_dvd n }

end Layout

/-- A byte offset in 32 bits. -/
structure Offset where
  raw : UInt32
  deriving DecidableEq

namespace Offset

def null : Offset := ⟨0xFFFFFFFF⟩

/-- The low 32 bits of a position. -/
def ofPosition (position : Nat) : Offset := ⟨UInt32.ofNat position⟩

def position (o : Offset) : Nat := o.raw.toNat

def isNull (o : Offset) : Bool := o = null

/-- The offset of an element of an array that starts here, if 32 bits can name it. -/
def element? (o : Offset) (layout : Layout) (index : Nat) : Option Offset :=
  if o.isNull then none
  else if o.position + index * layout.size < null.position then
    some (ofPosition (o.position + index * layout.size))
  else none

def text (o : Offset) : String :=
  if o.isNull then "OffsetRef(null)"
  else "OffsetRef(0x" ++ String.ofList (Nat.toDigits 16 o.position) ++ ")"

def stringText (o : Offset) : String := "StringRef(" ++ o.text ++ ")"

end Offset

end Bindery.Arena
