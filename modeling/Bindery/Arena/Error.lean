import Bindery.Arena.Offset
import Bindery.FileSystem.Fault
import Bindery.Path.Basic

/-!
# Why an arena call fails
-/

namespace Bindery.Arena

/-- The largest capacity that offsets reach into. -/
def maxCapacity : Nat := 0xFFFFFFFF

/-- Sizes are computed in 64 bits; this is the largest. -/
def maxWord : Nat := 0xFFFFFFFFFFFFFFFF

inductive Argument where
  | zeroCapacity
  | capacityOutOfRange (capacity : Nat)
  | emptyPath
  | zeroLength
  | interiorNul
  deriving DecidableEq

def Argument.message : Argument → String
  | .zeroCapacity => "arena capacity must be non-zero"
  | .capacityOutOfRange n =>
    s!"arena capacity {n} exceeds the {maxCapacity}-byte offset range"
  | .emptyPath => "empty arena path"
  | .zeroLength => "zero-length allocation"
  | .interiorNul => "string contains an interior NUL byte"

inductive Error where
  | notFound (path : Path)
  | file (path : Path) (fault : Fault)
  | map (path : Path) (fault : Fault)
  /-- There is no room for so many bytes. -/
  | exhausted (requested available : Nat)
  | invalidArgument (argument : Argument)
  | notOpen
  | readOnly
  /-- No complete value of `len` bytes lies at an offset. -/
  | invalidOffset (offset : Offset) (len size : Nat)
  /-- No ended text lies at an offset. -/
  | invalidString (offset : Offset)
  deriving DecidableEq

namespace Error

def message : Error → String
  | notFound path => "arena file not found: " ++ path.display
  | file path fault => "arena I/O error at " ++ path.display ++ ": " ++ fault.message
  | map path fault => "cannot map arena file " ++ path.display ++ ": " ++ fault.message
  | exhausted requested available =>
    s!"arena exhausted: requested {requested} bytes, {available} available"
  | invalidArgument argument => "invalid argument: " ++ argument.message
  | notOpen => "arena is not open"
  | readOnly => "arena is mapped read-only"
  | invalidOffset offset len size =>
    s!"offset {offset.position} (+{len} bytes) is outside the allocated region of {size} bytes"
  | invalidString offset => s!"no valid string at offset {offset.position}"

def isFault : Error → Bool
  | file .. | map .. => true
  | _ => false

/-- Whether a larger capacity could help. -/
def isExhausted : Error → Bool
  | exhausted .. => true
  | _ => false

end Error

end Bindery.Arena
