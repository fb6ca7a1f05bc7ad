import Bindery.FileSystem.Content
import Bindery.SortedMap
import Bindery.Time.Instant

/-!
# File systems

A file system is the files there ever were, each known by its number, and a sorted map from routes
(the names from the root directory down) to directories and file numbers. A name can be removed or
come to stand for another file while whoever has the old one open keeps it: an open file is a
number, not a name.

Some of what a disk can hold is left out. No file has two names (`unique`), and there are no
symbolic links: with a destination and the file beside it that a build writes as two names of one
file, the build would write over what readers of the destination have mapped. And no reading or
writing of an open file fails: devices do not break, disks are never full, and nothing is closed to
whoever runs the program. Only a reading for a checksum can end early or fail (`Checksum.Reading`).

The changes below are the only ones, and each comes with what it does to `node?` and `file`.
-/

namespace Bindery

namespace FileSystem

abbrev Name := List UInt8

/-- The names that lead from the root directory to a file or directory. -/
abbrev Route := List Name

structure File where
  content : Content
  modified : Time.Instant
  deriving Inhabited

/-- What a route leads to. -/
inductive Node where
  | file (id : Nat)
  | directory (modified : Time.Instant)
  deriving DecidableEq

end FileSystem

open FileSystem in
/-- Files by number, and routes to them and to directories. -/
structure FileSystem where
  files : List File
  nodes : SortedMap Route Node
  /-- The directory that relative paths start in. -/
  workingDirectory : Route
  /-- The time that a change made now is given. -/
  now : Time.Instant
  /-- The times that files and directories can be given. -/
  times : Time.Range
  known : ∀ r id, nodes.get? r = some (.file id) → id < files.length
  unique : ∀ r₁ r₂ id, nodes.get? r₁ = some (.file id) → nodes.get? r₂ = some (.file id) → r₁ = r₂

namespace FileSystem

def node? (fs : FileSystem) (r : Route) : Option Node := fs.nodes.get? r

def file (fs : FileSystem) (id : Nat) : File := fs.files[id]?.getD default

/-! ### The changes -/

/-- Nothing but a root directory. -/
def bare (now : Time.Instant) : FileSystem where
  files := []
  nodes := SortedMap.empty.insert [] (.directory now)
  workingDirectory := []
  now
  times := .usual
  known r id h := by
    simp only [SortedMap.get?_insert, SortedMap.get?_empty] at h
    split at h <;> simp at h
  unique r₁ r₂ id h := by
    simp only [SortedMap.get?_insert, SortedMap.get?_empty] at h
    split at h <;> simp at h

def modifyFile (fs : FileSystem) (id : Nat) (f : File → File) : FileSystem :=
  { fs with
    files := fs.files.modify id f
    known := fun r i h => by simpa using fs.known r i h }

/-- Makes a route lead to a new file. -/
def addFile (fs : FileSystem) (r : Route) (file : File) : FileSystem :=
  { fs with
    files := fs.files ++ [file]
    nodes := fs.nodes.insert r (.file fs.files.length)
    known := fun r' id h => by
      rw [SortedMap.get?_insert] at h
      split at h
      · cases h; simp
      · have := fs.known r' id h; simp; omega
    unique := fun r₁ r₂ id h₁ h₂ => by
      rw [SortedMap.get?_insert] at h₁ h₂
      split at h₁ <;> split at h₂
      · simp [*]
      · cases h₁; have := fs.known r₂ _ h₂; omega
      · cases h₂; have := fs.known r₁ _ h₁; omega
      · exact fs.unique r₁ r₂ id h₁ h₂ }

/-- Makes a route lead to a directory. -/
def putDirectory (fs : FileSystem) (r : Route) (modified : Time.Instant) : FileSystem :=
  { fs with
    nodes := fs.nodes.insert r (.directory modified)
    known := fun r' id h => by
      rw [SortedMap.get?_insert] at h
      split at h
      · cases h
      · exact fs.known r' id h
    unique := fun r₁ r₂ id h₁ h₂ => by
      rw [SortedMap.get?_insert] at h₁ h₂
      split at h₁
      · cases h₁
      · split at h₂
        · cases h₂
        · exact fs.unique r₁ r₂ id h₁ h₂ }

/-- Removes the routes that a test picks out. -/
def removeWhere (fs : FileSystem) (gone : Route → Bool) : FileSystem :=
  { fs with
    nodes := fs.nodes.filter fun r _ => !gone r
    known := fun r id h => by
      rw [SortedMap.get?_filter] at h
      exact fs.known r id (Option.eq_some_of_filter_eq_some h)
    unique := fun r₁ r₂ id h₁ h₂ => by
      rw [SortedMap.get?_filter] at h₁ h₂
      exact fs.unique r₁ r₂ id (Option.eq_some_of_filter_eq_some h₁)
        (Option.eq_some_of_filter_eq_some h₂) }

/-- Makes a second route lead to what a first one led to, which then leads nowhere. -/
def moveNode (fs : FileSystem) (src dst : Route) : FileSystem :=
  match h : fs.nodes.get? src with
  | none => fs
  | some node =>
    { fs with
      nodes := (fs.nodes.erase src).insert dst node
      known := fun r id hr => by
        simp only [SortedMap.get?_insert, SortedMap.get?_erase] at hr
        split at hr
        · cases hr; exact fs.known src id h
        · split at hr
          · cases hr
          · exact fs.known r id hr
      unique := fun r₁ r₂ id h₁ h₂ => by
        simp only [SortedMap.get?_insert, SortedMap.get?_erase] at h₁ h₂
        split at h₁ <;> split at h₂
        · simp [*]
        · split at h₂
          · cases h₂
          · cases h₁
            next hne => exact absurd (fs.unique r₂ src id h₂ h) hne
        · split at h₁
          · cases h₁
          · cases h₂
            next hne => exact absurd (fs.unique r₁ src id h₁ h) hne
        · split at h₁
          · cases h₁
          · split at h₂
            · cases h₂
            · exact fs.unique r₁ r₂ id h₁ h₂ }

/-! ### Routes and files after a change -/

@[simp] theorem node?_modifyFile (fs : FileSystem) (id : Nat) (f : File → File) (r : Route) :
    (fs.modifyFile id f).node? r = fs.node? r := rfl

theorem node?_addFile (fs : FileSystem) (r s : Route) (file : File) :
    (fs.addFile r file).node? s = if s = r then some (.file fs.files.length) else fs.node? s :=
  SortedMap.get?_insert ..

theorem node?_putDirectory (fs : FileSystem) (r s : Route) (t : Time.Instant) :
    (fs.putDirectory r t).node? s = if s = r then some (.directory t) else fs.node? s :=
  SortedMap.get?_insert ..

theorem node?_removeWhere (fs : FileSystem) (gone : Route → Bool) (s : Route) :
    (fs.removeWhere gone).node? s = if gone s then none else fs.node? s := by
  simp only [node?, removeWhere, SortedMap.get?_filter]
  cases fs.nodes.get? s <;> cases gone s <;> simp [Option.filter]

theorem node?_moveNode {fs : FileSystem} {src : Route} {node : Node}
    (h : fs.node? src = some node) (dst s : Route) :
    (fs.moveNode src dst).node? s =
      if s = dst then some node else if s = src then none else fs.node? s := by
  unfold moveNode
  split
  · next h' => rw [node?, h'] at h; cases h
  · next h' =>
    rw [node?, h'] at h
    cases h
    simp [node?, SortedMap.get?_insert, SortedMap.get?_erase]

theorem file_modifyFile (fs : FileSystem) (id i : Nat) (f : File → File)
    (h : id < fs.files.length) :
    (fs.modifyFile id f).file i = if i = id then f (fs.file i) else fs.file i := by
  simp only [file, modifyFile, List.getElem?_modify]
  split
  · next hi =>
    subst hi
    simp [List.getElem?_eq_getElem h]
  · next hi => simp [Ne.symm hi]

theorem file_addFile (fs : FileSystem) (r : Route) (new : File) (i : Nat) :
    (fs.addFile r new).file i = if i = fs.files.length then new else fs.file i := by
  simp only [file, addFile]
  by_cases h : i < fs.files.length
  · simp [List.getElem?_append_left h, Nat.ne_of_lt h]
  · by_cases h' : i = fs.files.length
    · simp [h']
    · have h₁ : fs.files.length ≤ i := by omega
      have h₂ : i - fs.files.length ≠ 0 := by omega
      simp [h', List.getElem?_append_right h₁, List.getElem?_eq_none h₁, h₂]

end FileSystem

end Bindery
