import Bindery.FileSystem.Walk

/-!
# Finding resources by id

A kind of resource has a naming convention: text put before an id and text put after it. A locator
anchors the convention under a root directory; with a fallback, a file that is not under the root
is looked for under a second one. Paths go back to ids by taking off the root and the convention's
two texts (`strip`).
-/

namespace Bindery

/-- A category of resources and how their files are named. -/
structure Kind where
  name : String
  /-- The text put before an id. -/
  before : String
  /-- The text put after an id. -/
  after : String
  deriving DecidableEq

namespace Kind

def fileName (k : Kind) (id : String) : String := k.before ++ id ++ k.after

/-- A text without the convention's two texts, each taken off if it is there. Where the two
overlap nothing is left. -/
def strip (k : Kind) (text : String) : String :=
  let chars := text.toList
  let start := if k.before.toList.isPrefixOf chars then k.before.toList.length else 0
  let stop :=
    if k.after.toList.isSuffixOf chars then chars.length - k.after.toList.length
    else chars.length
  String.ofList ((chars.take stop).drop start)

/-- Adds to an id the text before it, unless it is there or the id names a subdirectory, and the
text after it, unless it is there. -/
def complete (k : Kind) (id : String) : String :=
  let hasParent :=
    match (Path.ofString id).parent? with
    | some above => !above.isEmpty
    | none => false
  let before :=
    if !hasParent && !k.before.toList.isPrefixOf id.toList then k.before else ""
  let after := if k.after.toList.isSuffixOf id.toList then "" else k.after
  before ++ id ++ after

end Kind

/-- The part of a path beneath a root, or the whole path if it is not beneath it. -/
def Path.beneath (root p : Path) : Path :=
  if root.isEmpty then p else (root.stripRoot? p).getD p

/-- A naming convention anchored under a root directory. -/
structure Locator where
  kind : Kind
  root : Path
  deriving DecidableEq

namespace Locator

def resolve (l : Locator) (id : String) : Path := l.root.join (Path.ofString (l.kind.fileName id))

def idOf (l : Locator) (p : Path) : String := l.kind.strip (l.root.beneath p).display

end Locator

/-- A locator with a second root, where there is one, for files that are not under the first. -/
structure FallbackLocator where
  primary : Locator
  fallback : Option Path
  deriving DecidableEq

namespace FallbackLocator

def fallbackPath? (l : FallbackLocator) (id : String) : Option Path :=
  l.fallback.map fun root => root.join (Path.ofString (l.primary.kind.fileName id))

/-- The path of an id: under the first root if something is there, else under the second if
something is there, else under the first all the same. -/
def resolve (l : FallbackLocator) (fs : FileSystem) (id : String) : Path :=
  if fs.pathExists (l.primary.resolve id) then l.primary.resolve id
  else ((l.fallbackPath? id).filter fs.pathExists).getD (l.primary.resolve id)

/-- The id that a path under either root belongs to. -/
def idOf (l : FallbackLocator) (p : Path) : String :=
  let relative := l.primary.root.beneath p
  let relative :=
    if relative.sameAs p then
      match l.fallback with
      | some root => root.beneath p
      | none => relative
    else relative
  l.primary.kind.strip relative.display

end FallbackLocator

/-- A locator with or without a fallback. -/
inductive Resolver where
  | plain (l : Locator)
  | fallback (l : FallbackLocator)
  deriving DecidableEq

def Resolver.resolve : Resolver → FileSystem → String → Path
  | plain l, _, id => l.resolve id
  | fallback l, fs, id => l.resolve fs id

end Bindery
