import Bindery.Text.Utf8

/-!
# Paths

A path is kept as the bytes it was written with; what it means is its list of components. Repeated
and trailing slashes and a `.` behind the start make no component, a `.` at the start and every
`..` do. `parent` and `stripRoot?` work on components and hand back the part of the text that
remains, less the separators and dots at its ends.
-/

namespace Bindery

/-- A path, as the bytes of its text. -/
structure Path where
  bytes : List UInt8
  deriving DecidableEq, Inhabited

namespace Path

def slash : UInt8 := 47

/-- The piece that stands for the directory it is written in. -/
def dot : List UInt8 := [46]

/-- The piece that stands for the directory above. -/
def dotDot : List UInt8 := [46, 46]

def ofString (text : String) : Path := ⟨Text.encode text⟩

/-- The text of a path, broken bytes replaced. -/
def display (p : Path) : String := Text.lossy p.bytes

def isEmpty (p : Path) : Bool := p.bytes.isEmpty

def isAbsolute (p : Path) : Bool := p.bytes.head? = some slash

/-- The pieces between slashes, empty ones included. -/
def pieces (p : Path) : List (List UInt8) := p.bytes.splitOn slash

/-- One step of a path. -/
inductive Component where
  | root
  | current
  | parent
  | name (bytes : List UInt8)
  deriving DecidableEq

/-- The component that a piece behind the start stands for. -/
def componentOfPiece (piece : List UInt8) : Option Component :=
  if piece = [] ∨ piece = dot then none
  else if piece = dotDot then some .parent
  else some (.name piece)

/-- The start of a path that is a component of its own, `/` or `.`, and the text behind it. -/
def split (p : Path) : Option Component × List UInt8 :=
  if p.isAbsolute then (some .root, p.bytes.tail)
  else if p.pieces.head? = some dot then (some .current, p.bytes.tail)
  else (none, p.bytes)

def components (p : Path) : List Component :=
  p.split.1.toList ++ (p.split.2.splitOn slash).filterMap componentOfPiece

def sameAs (p q : Path) : Bool := p.components = q.components

/-- Puts a path behind another one; an absolute path stands alone. -/
def join (p q : Path) : Path :=
  if q.isAbsolute then q
  else if p.isEmpty || p.bytes.getLast? = some slash then ⟨p.bytes ++ q.bytes⟩
  else ⟨p.bytes ++ slash :: q.bytes⟩

/-- Adds text to the end of a path's last piece. -/
def append (p : Path) (text : String) : Path := ⟨p.bytes ++ Text.encode text⟩

def joinPieces (pieces : List (List UInt8)) : List UInt8 := [slash].intercalate pieces

/-- Drops the pieces at the front that are no components. -/
def trimFront (pieces : List (List UInt8)) : List (List UInt8) :=
  pieces.dropWhile fun piece => (componentOfPiece piece).isNone

/-- Drops the pieces at the end that are no components. -/
def trimEnd (pieces : List (List UInt8)) : List (List UInt8) :=
  (trimFront pieces.reverse).reverse

def startText : Option Component → List UInt8
  | some .root => [slash]
  | some .current => dot
  | _ => []

/-- The path without its last component. The root directory and the empty path have no parent. -/
def parent? (p : Path) : Option Path :=
  match (trimEnd (p.split.2.splitOn slash)).reverse with
  | _ :: rest => some ⟨startText p.split.1 ++ joinPieces (trimEnd rest.reverse)⟩
  | [] => if p.split.1 = some .current then some ⟨[]⟩ else none

/-- Takes components off the front of pieces, in step with a list of components. -/
def stripPieces? : List Component → List (List UInt8) → Option (List (List UInt8))
  | [], pieces => some pieces
  | c :: cs, pieces =>
    match trimFront pieces with
    | piece :: rest => if componentOfPiece piece = some c then stripPieces? cs rest else none
    | [] => none

/-- The part of a path beneath another path, if its components begin with that path's. -/
def stripRoot? (root p : Path) : Option Path :=
  let pieces := p.split.2.splitOn slash
  match p.split.1, root.components with
  | start, [] => some ⟨startText start ++ joinPieces (trimEnd pieces)⟩
  | none, cs => (stripPieces? cs pieces).map fun rest => ⟨joinPieces (trimEnd (trimFront rest))⟩
  | some start, c :: cs =>
    if start = c then
      (stripPieces? cs pieces).map fun rest => ⟨joinPieces (trimEnd (trimFront rest))⟩
    else none

/-- A path with the paths above it, nearest first. -/
def ancestors (p : Path) : List Path :=
  go p p.components.length
where
  /-- At most `n` parents of a path, behind the path itself. -/
  go (p : Path) : Nat → List Path
    | 0 => [p]
    | n + 1 =>
      match p.parent? with
      | some above => p :: go above n
      | none => [p]

end Path

end Bindery
