import Bindery.FileSystem.Walk

/-!
# Observed file systems

A command depends on few paths. What lies on the way along these is all that has to be known of a
disk to find out what the command does, and the difference between the file systems before and
after it is what there is to do.
-/

namespace Bindery.FileSystem

/-- What is found at a route on a disk. -/
inductive Finding where
  | nothing
  | file (bytes : List UInt8) (modified : Time.Instant)
  | directory (modified : Time.Instant)

/-- Takes over what is found at a route that nothing is known of. -/
def learn (fs : FileSystem) (r : Route) (found : Finding) : FileSystem :=
  match fs.node? r, found with
  | none, .file bytes modified => fs.addFile r ⟨.ofList bytes, modified⟩
  | none, .directory modified => fs.putDirectory r modified
  | _, _ => fs

/-- The route to a directory, with the routes above it, outermost first. -/
def routesTo (r : Route) : List Route := (List.range (r.length + 1)).map r.take

/-- The routes that the way along pieces comes by, from a directory on. -/
def routesOnWay (dir : Route) : List Name → List Route
  | [] => []
  | piece :: rest =>
    let next :=
      if piece = Path.dot then dir
      else if piece = Path.dotDot then dir.dropLast
      else dir ++ [piece]
    next :: routesOnWay next rest

/-- The routes that the way along a path comes by. -/
def routesAlong (fs : FileSystem) (p : Path) : List Route :=
  let start := if p.isAbsolute then [] else fs.workingDirectory
  routesTo start ++ routesOnWay start (p.pieces.filter (· ≠ []))

inductive Change where
  | removeFile (r : Route)
  | makeDirectory (r : Route)
  | writeFile (r : Route) (bytes : List UInt8)
  deriving DecidableEq

/-- The change to what a route leads to now. -/
def change? (before after : FileSystem) (r : Route) : Node → Option Change
  | .directory _ =>
    match before.node? r with
    | some (.directory _) => none
    | _ => some (.makeDirectory r)
  | .file id =>
    let bytes := (after.file id).content.toList
    match before.node? r with
    | some (.file old) =>
      if old = id ∧ (before.file old).content.toList = bytes then none
      else some (.writeFile r bytes)
    | _ => some (.writeFile r bytes)

/-- What makes one file system out of another one that has no directory more: files that are gone
are removed, and directories are made before what they hold. -/
def changes (before after : FileSystem) : List Change :=
  (before.nodes.entries.filterMap fun
    | (r, .file _) => if (after.node? r).isNone then some (.removeFile r) else none
    | (_, .directory _) => none) ++
  after.nodes.entries.filterMap fun (r, node) => change? before after r node

end Bindery.FileSystem
