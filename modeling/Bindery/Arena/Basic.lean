import Bindery.Arena.Error
import Bindery.FileSystem.Operations

/-!
# Arenas

An arena is a file mapped into memory in which space is handed out from the front. The handle is
closed, or mapped read-only with the whole file counting as allocated, or mapped for writing with
the first `size` bytes allocated. A mapping holds on to the file it was made from, whatever
happens to the file's name, and its length stays what it was when it was made.

Calls that change anything are actions on the handle and the file system together (`Action`).
-/

namespace Bindery

namespace Arena

inductive Mode where
  | readOnly
  | readWrite
  deriving DecidableEq

/-- A file in memory. -/
structure Mapping where
  mode : Mode
  file : Nat
  length : Nat
  deriving DecidableEq

end Arena

structure Arena where
  path : Path
  mapping : Option Arena.Mapping
  size : Nat
  deriving DecidableEq

namespace Arena

def closed (path : Path) : Arena := ⟨path, none, 0⟩

def isOpen (a : Arena) : Bool := a.mapping.isSome

def mode (a : Arena) : Option Mode := a.mapping.map Mapping.mode

def capacity (a : Arena) : Nat :=
  match a.mapping with
  | some m => m.length
  | none => 0

def available (a : Arena) : Nat := a.capacity - a.size

structure State where
  fs : FileSystem
  arena : Arena

/-- A call that may change the handle and the files and may fail. -/
abbrev Action := EStateM Error State

def Error.ofOpening (path : Path) : Fault → Error
  | .notFound => .notFound path
  | fault => .file path fault

/-! ### Opening and closing -/

def close : Action Unit := modify fun s => { s with arena := closed s.arena.path }

/-- Makes the file exactly so many bytes long. The arena is closed afterwards. -/
def resize (capacity : Nat) : Action Unit := do
  if maxCapacity < capacity then
    throw (.invalidArgument (.capacityOutOfRange capacity))
  close
  let s ← get
  match s.fs.openToWrite s.arena.path with
  | .ok id => set { s with fs := s.fs.setLength id capacity }
  | .error fault => throw (Error.ofOpening s.arena.path fault)

/-- Maps the file, with nothing allocated. -/
def map (mode : Mode) : Action Unit := do
  close
  let s ← get
  let opened :=
    match mode with
    | .readOnly => s.fs.openToRead s.arena.path
    | .readWrite => (s.fs.openToWrite s.arena.path).map .file
  match opened with
  | .ok (.file id) =>
    set { s with arena := { s.arena with mapping := some ⟨mode, id, (s.fs.file id).content.size⟩ } }
  | .ok (.directory _) => throw (.map s.arena.path .noDevice)
  | .error fault => throw (Error.ofOpening s.arena.path fault)

/-- Makes a new empty file of so many zeros. -/
def createFile (capacity : Nat) : Action Unit := do
  close
  let s ← get
  match s.fs.create s.arena.path with
  | .ok (id, fs) => set { s with fs := fs.setLength id capacity }
  | .error fault => throw (.file s.arena.path fault)

/-- Makes the file, or one that is there, so many bytes long and maps it for writing. -/
def create (capacity : Nat) : Action Unit := do
  if capacity = 0 then
    throw (.invalidArgument .zeroCapacity)
  if maxCapacity < capacity then
    throw (.invalidArgument (.capacityOutOfRange capacity))
  let s ← get
  if s.arena.path.isEmpty then
    throw (.invalidArgument .emptyPath)
  if s.fs.pathExists s.arena.path then resize capacity else createFile capacity
  map .readWrite

/-- Fails unless something is at the arena's path. -/
def assertExists : Action Unit := do
  let s ← get
  unless s.fs.pathExists s.arena.path do
    throw (.notFound s.arena.path)

/-- Maps a file that is there for reading. All of it counts as allocated. -/
def openToRead : Action Unit := do
  assertExists
  map .readOnly
  modify fun s => { s with arena := { s.arena with size := s.arena.capacity } }

/-- Maps a file that is there for writing, with nothing allocated. -/
def openToWrite : Action Unit := do
  assertExists
  map .readWrite

/-- Sees to it that everything written is in the file; it already is. -/
def flush : Action Unit := do
  unless (← get).arena.isOpen do
    throw .notOpen

/-- Cuts the file down to what is allocated. The arena is closed afterwards. -/
def trim : Action Unit := do
  let s ← get
  unless s.arena.isOpen do
    throw .notOpen
  resize s.arena.size

/-- Closes the arena and removes its file; that there is none is no error. -/
def remove : Action Unit := do
  close
  let s ← get
  match s.fs.remove s.arena.path with
  | .ok fs => set { s with fs }
  | .error .notFound => pure ()
  | .error fault => throw (.file s.arena.path fault)

end Arena

end Bindery
