import Bindery.FileSystem.Walk

/-!
# Operations on files

Opening, making, reading, renaming and removing by path, and changing an open file by its number.
Making and removing a name changes the directory it is in, and every change to a file's bytes or
length makes it modified now.
-/

namespace Bindery.FileSystem

/-! ### Open files -/

/-- The file that a path opens for reading, or the directory. -/
def openToRead (fs : FileSystem) (p : Path) : Except Fault Node :=
  match fs.stat p with
  | .ok (_, node) => .ok node
  | .error e => .error e

/-- The file that a path opens for writing. -/
def openToWrite (fs : FileSystem) (p : Path) : Except Fault Nat :=
  match fs.stat p with
  | .ok (_, .file id) => .ok id
  | .ok (_, .directory _) => .error .isDirectory
  | .error e => .error e

def setLength (fs : FileSystem) (id n : Nat) : FileSystem :=
  fs.modifyFile id fun f => ⟨f.content.resize n, fs.now⟩

/-- Writes bytes over those at a position of a file. Writing none changes nothing. -/
def writeAt (fs : FileSystem) (id pos : Nat) (bytes : List UInt8) : FileSystem :=
  if bytes = [] then fs
  else fs.modifyFile id fun f => ⟨f.content.overwrite pos bytes, fs.now⟩

/-- Writes zeros at the positions of a file from `lo` on and below `hi`. -/
def zeroAt (fs : FileSystem) (id lo hi : Nat) : FileSystem :=
  fs.modifyFile id fun f => ⟨f.content.zeroFill lo hi, fs.now⟩

/-! ### Reading by path -/

def read (fs : FileSystem) (p : Path) : Except Fault (List UInt8) :=
  match fs.openToRead p with
  | .ok (.file id) => .ok (fs.file id).content.toList
  | .ok (.directory _) => .error .isDirectory
  | .error e => .error e

def readText (fs : FileSystem) (p : Path) : Except Fault String :=
  match fs.read p with
  | .ok bytes =>
    match Text.decode? bytes with
    | some text => .ok text
    | none => .error .notText
  | .error e => .error e

def Node.modified (fs : FileSystem) : Node → Time.Instant
  | .file id => (fs.file id).modified
  | .directory t => t

/-- The second in which what is at a path was last modified, if it can be read. -/
def lastModified? (fs : FileSystem) (p : Path) : Option Int :=
  match fs.stat p with
  | .ok (_, node) => some (node.modified fs).seconds
  | .error _ => none

/-! ### Changes by path -/

/-- A directory is modified now, if there is one at a route. -/
def touchDirectory (fs : FileSystem) (r : Route) : FileSystem :=
  match fs.node? r with
  | some (.directory _) => fs.putDirectory r fs.now
  | _ => fs

/-- Makes the file at a path an empty one, a new one if there is none. -/
def create (fs : FileSystem) (p : Path) : Except Fault (Nat × FileSystem) :=
  match fs.locate p with
  | .error e => .error e
  | .ok (.directory _) => .error .isDirectory
  | .ok (.entry dir name slashed) =>
    if slashed then .error .isDirectory
    else match fs.lookup dir name with
      | .error e => .error e
      | .ok (some (.directory _)) => .error .isDirectory
      | .ok (some (.file id)) => .ok (id, fs.setLength id 0)
      | .ok none =>
        .ok (fs.files.length, (fs.addFile (dir ++ [name]) ⟨.empty, fs.now⟩).touchDirectory dir)

def remove (fs : FileSystem) (p : Path) : Except Fault FileSystem :=
  match fs.locate p with
  | .error e => .error e
  | .ok (.directory _) => .error .isDirectory
  | .ok (.entry dir name slashed) =>
    match fs.lookup dir name with
    | .error e => .error e
    | .ok none => .error .notFound
    | .ok (some (.directory _)) => .error .isDirectory
    | .ok (some (.file _)) =>
      if slashed then .error .notDirectory
      else .ok ((fs.removeWhere (· = dir ++ [name])).touchDirectory dir)

/-- Gives the file at a path another path, in place of a file that is there. -/
def rename (fs : FileSystem) (src dst : Path) : Except Fault FileSystem :=
  match fs.locate src, fs.locate dst with
  | .error e, _ => .error e
  | _, .error e => .error e
  | .ok (.directory _), _ => .error .busy
  | _, .ok (.directory _) => .error .busy
  | .ok (.entry srcDir srcName srcSlashed), .ok (.entry dstDir dstName dstSlashed) =>
    match fs.lookup srcDir srcName, fs.lookup dstDir dstName with
    | .error e, _ => .error e
    | .ok none, _ => .error .notFound
    | _, .error e => .error e
    | .ok (some (.directory _)), _ => .error .isDirectory
    | .ok (some (.file _)), .ok target =>
      if srcSlashed || dstSlashed then .error .notDirectory
      else match target with
        | some (.directory _) => .error .isDirectory
        | _ =>
          if srcDir ++ [srcName] = dstDir ++ [dstName] then .ok fs
          else .ok (((fs.moveNode (srcDir ++ [srcName]) (dstDir ++ [dstName])).touchDirectory
            srcDir).touchDirectory dstDir)

def makeDirectory (fs : FileSystem) (p : Path) : Except Fault FileSystem :=
  match fs.locate p with
  | .error e => .error e
  | .ok (.directory _) => .error .exists
  | .ok (.entry dir name _) =>
    match fs.lookup dir name with
    | .error e => .error e
    | .ok (some _) => .error .exists
    | .ok none => .ok ((fs.putDirectory (dir ++ [name]) fs.now).touchDirectory dir)

/-- Makes a directory at a path and the directories above it, going up at most `n` times. -/
def makeDirectoriesUpTo : Nat → FileSystem → Path → Except Fault Unit × FileSystem
  | n, fs, p =>
    if p.isEmpty then (.ok (), fs)
    else match fs.makeDirectory p with
      | .ok fs => (.ok (), fs)
      | .error .notFound =>
        match n, p.parent? with
        | n + 1, some above =>
          match makeDirectoriesUpTo n fs above with
          | (.error e, fs) => (.error e, fs)
          | (.ok (), fs) =>
            match fs.makeDirectory p with
            | .ok fs => (.ok (), fs)
            | .error e => (if fs.isDirectory p then .ok () else .error e, fs)
        | _, _ => (.error .notFound, fs)
      | .error e => (if fs.isDirectory p then .ok () else .error e, fs)

/-- Makes a directory at a path and all missing directories above it. What was made stays when a
later one cannot be made. -/
def makeDirectories (fs : FileSystem) (p : Path) : Except Fault Unit × FileSystem :=
  makeDirectoriesUpTo p.components.length fs p

/-- Sets the time at which the file at a path was last modified, to one that the disk keeps. -/
def setModified (fs : FileSystem) (p : Path) (t : Time.Instant) : Except Fault FileSystem :=
  match fs.openToWrite p with
  | .ok id => .ok (fs.modifyFile id fun f => { f with modified := fs.times.kept t })
  | .error e => .error e

/-- Makes the file at a path hold given bytes, a new one if there is none. -/
def write (fs : FileSystem) (p : Path) (bytes : List UInt8) : Except Fault FileSystem :=
  match fs.create p with
  | .ok (id, fs) => .ok (fs.writeAt id 0 bytes)
  | .error e => .error e

/-- Removes what is at a path, a directory with all it holds. -/
def removeAll (fs : FileSystem) (p : Path) : Except Fault FileSystem :=
  match fs.stat p with
  | .ok (r, _) => .ok ((fs.removeWhere r.isPrefixOf).touchDirectory r.dropLast)
  | .error e => .error e

/-- Sets the time at which the file or directory at a path was last modified, to one that the disk
keeps. -/
def setTime (fs : FileSystem) (p : Path) (t : Time.Instant) : Except Fault FileSystem :=
  match fs.stat p with
  | .ok (_, .file id) => .ok (fs.modifyFile id fun f => { f with modified := fs.times.kept t })
  | .ok (r, .directory _) => .ok (fs.putDirectory r (fs.times.kept t))
  | .error e => .error e

/-- All that lies beneath a route, each directory before what it holds. -/
def below (fs : FileSystem) (r : Route) : List (Route × Node) :=
  (fs.nodes.entries.filter fun e => r.isPrefixOf e.1 && e.1 ≠ r).map fun e =>
    (e.1.drop r.length, e.2)

end Bindery.FileSystem
