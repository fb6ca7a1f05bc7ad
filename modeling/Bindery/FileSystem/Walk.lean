import Bindery.FileSystem.Basic
import Bindery.FileSystem.Fault
import Bindery.Path.Basic

/-!
# Following a path

The pieces of a path are followed one by one from the root directory or the working directory.
Every piece before the last has to lead to a directory, a `.` or `..` among them too, and so has
the last one if a slash comes after it. `locate` goes as far as the last piece, `stat` all the way.
A name that is too long is refused where it is looked up, not before.
-/

namespace Bindery.FileSystem

/-- The longest name a directory can hold. -/
def nameLimit : Nat := 255

/-- The number of bytes at which a path is too long to follow. -/
def pathLimit : Nat := 4096

/-- The absolute path of the working directory. -/
def workingPath (fs : FileSystem) : Path := ⟨Path.slash :: Path.joinPieces fs.workingDirectory⟩

/-- Where the way to the last piece of a path ends. -/
inductive Spot where
  /-- At a directory itself: the last piece is `.` or `..`, or there is none. -/
  | directory (r : Route)
  /-- At a name in a directory, with or without a slash behind it. -/
  | entry (dir : Route) (name : Name) (slashed : Bool)
  deriving DecidableEq

/-- What a name in a directory leads to, if anything. -/
def lookup (fs : FileSystem) (dir : Route) (name : Name) : Except Fault (Option Node) :=
  if nameLimit < name.length then .error .nameTooLong else .ok (fs.node? (dir ++ [name]))

/-- One piece of the way from a directory to another one. -/
def step (fs : FileSystem) (dir : Route) (piece : Name) : Except Fault Route :=
  if piece = Path.dot then .ok dir
  else if piece = Path.dotDot then .ok dir.dropLast
  else match fs.lookup dir piece with
    | .error e => .error e
    | .ok none => .error .notFound
    | .ok (some (.file _)) => .error .notDirectory
    | .ok (some (.directory _)) => .ok (dir ++ [piece])

def walk (fs : FileSystem) (dir : Route) : List Name → Except Fault Route
  | [] => .ok dir
  | piece :: rest =>
    match fs.step dir piece with
    | .ok next => fs.walk next rest
    | .error e => .error e

/-- The way to the last piece of a path. -/
def locate (fs : FileSystem) (p : Path) : Except Fault Spot :=
  if 0 ∈ p.bytes then .error .nulInName
  else if p.isEmpty then .error .notFound
  else if pathLimit ≤ p.bytes.length then .error .nameTooLong
  else
    let start := if p.isAbsolute then [] else fs.workingDirectory
    let pieces := p.pieces.filter (· ≠ [])
    match pieces.getLast? with
    | none => .ok (.directory start)
    | some last =>
      match fs.walk start pieces.dropLast with
      | .error e => .error e
      | .ok dir =>
        if last = Path.dot then .ok (.directory dir)
        else if last = Path.dotDot then .ok (.directory dir.dropLast)
        else .ok (.entry dir last (p.bytes.getLast? = some Path.slash))

/-- The route that a path leads along, and what is there. -/
def stat (fs : FileSystem) (p : Path) : Except Fault (Route × Node) :=
  match fs.locate p with
  | .error e => .error e
  | .ok (.directory r) =>
    match fs.node? r with
    | some node => .ok (r, node)
    | none => .error .notFound
  | .ok (.entry dir name slashed) =>
    match fs.lookup dir name with
    | .error e => .error e
    | .ok none => .error .notFound
    | .ok (some (.file id)) =>
      if slashed then .error .notDirectory else .ok (dir ++ [name], .file id)
    | .ok (some (.directory t)) => .ok (dir ++ [name], .directory t)

def pathExists (fs : FileSystem) (p : Path) : Bool := (fs.stat p).toBool

def isFile (fs : FileSystem) (p : Path) : Bool :=
  match fs.stat p with
  | .ok (_, .file _) => true
  | _ => false

def isDirectory (fs : FileSystem) (p : Path) : Bool :=
  match fs.stat p with
  | .ok (_, .directory _) => true
  | _ => false

end Bindery.FileSystem
