import Std.Time.Zoned.Database
import Bindery.CommandLine.Footprint
import Bindery.FileSystem.Observed

/-!
# The program

Reads what a command needs from the disk, runs it, and puts what it changed back.
-/

namespace Bindery.CommandLine

open FileSystem (Route Finding Change)

private def nameOnDisk (r : Route) : IO String :=
  match Text.decode? (Path.slash :: Path.joinPieces r) with
  | some name => pure name
  | none => throw (IO.userError Fault.notText.message)

private def routeOnDisk (name : String) : Route :=
  (Path.ofString name).pieces.filter (· ≠ [])

private def instantOnDisk (t : IO.FS.SystemTime) : Time.Instant :=
  ⟨t.sec * Time.nanosPerSecond + t.nsec.toNat⟩

private def findOnDisk (r : Route) : IO Finding := do
  let name ← nameOnDisk r
  let here ← IO.currentDir
  match ← (here / name).metadata.toBaseIO with
  | .error _ => pure .nothing
  | .ok m =>
    let modified := instantOnDisk m.modified
    match m.type with
    | .dir => pure (.directory modified)
    | _ =>
      let bytes ← IO.FS.readBinFile name
      pure (.file bytes.data.toList modified)

/-- Adds what is on the way along paths. -/
private def learnPaths (fs : FileSystem) (paths : List Path) : IO FileSystem :=
  (paths.flatMap fs.routesAlong).eraseDups.foldlM
    (fun fs r => do pure (fs.learn r (← findOnDisk r))) fs

/-- Changes the disk. A file is complete when it takes its name. -/
private def changeDisk : Change → IO Unit
  | .removeFile r => do IO.FS.removeFile (← nameOnDisk r)
  | .makeDirectory r => do IO.FS.createDir (← nameOnDisk r)
  | .writeFile r bytes => do
    let name ← nameOnDisk r
    let staging ← match Text.decode? (Builder.stagingPath (Path.ofString name)).bytes with
      | some staging => pure staging
      | none => pure name
    IO.FS.writeBinFile staging ⟨bytes.toArray⟩
    IO.FS.rename staging name

/-- The seconds by which local time is ahead, none where it is unknown. -/
private def localOffset (now : Std.Time.Timestamp) : IO Int := do
  match ← Std.Time.Database.defaultGetLocalZoneRules.toBaseIO with
  | .ok rules => pure (rules.timezoneAt now).offset.second.val
  | .error _ => pure 0

private def runOnDisk (i : Invocation) : IO UInt32 := do
  let now ← Std.Time.Timestamp.now
  let here ← IO.currentDir
  let bare : FileSystem :=
    { FileSystem.bare ⟨now.toNanosecondsSinceUnixEpoch.val⟩ with
      workingDirectory := routeOnDisk here.toString }
  let fs ← learnPaths bare (i.firstFootprint bare.workingPath)
  let fs ← learnPaths fs (i.secondFootprint fs)
  let o := run fs (← localOffset now) i
  (FileSystem.changes fs o.fs).forM changeDisk
  IO.print o.output
  IO.eprint o.allMessages
  pure (UInt32.ofNat o.exitCode)

end Bindery.CommandLine

def main (args : List String) : IO UInt32 := do
  match Bindery.CommandLine.Invocation.ofWords args with
  | .ok i =>
    match ← (Bindery.CommandLine.runOnDisk i).toBaseIO with
    | .ok code => pure code
    | .error e => do
      IO.eprint ("error: " ++ e.toString ++ "\n")
      pure 1
  | .error usage => do
    match usage with
    | .information => IO.print Bindery.CommandLine.usageText
    | .mistake => IO.eprint Bindery.CommandLine.usageText
    pure (UInt32.ofNat usage.exitCode)
