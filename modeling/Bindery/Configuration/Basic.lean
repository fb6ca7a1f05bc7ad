import Bindery.Arena.Basic
import Bindery.Locator

/-!
# Configurations

A configuration says where sources and artifacts lie, which kinds of resources there are, how
large arenas may become, whether checksums are compared and what the distribution is called.
`flaw?` finds the first thing that keeps it from being used.
-/

namespace Bindery

/-- Where sources and artifacts lie. -/
structure Configuration.Paths where
  /-- The first root of sources. -/
  userData : Path
  /-- The second root of sources, for those that are not under the first. -/
  sharedData : Option Path
  /-- The directory of artifacts, seen from the first root. -/
  staging : Path
  deriving DecidableEq

structure Configuration.Sizes where
  initialCapacity : Nat
  growthFactor : Nat
  maxCapacity : Nat
  deriving DecidableEq

structure Configuration.Distribution where
  name : String
  codeName : String
  version : String
  deriving DecidableEq

structure Configuration where
  paths : Configuration.Paths
  kinds : List Kind
  sizes : Configuration.Sizes
  verifyChecksums : Bool
  distribution : Configuration.Distribution
  deriving DecidableEq

namespace Configuration

/-- The parts of a distribution's name that there are, on one line. -/
def Distribution.identity (d : Distribution) : String :=
  String.intercalate " " ([d.name, d.codeName, d.version].filter (· ≠ ""))

def kind? (c : Configuration) (name : String) : Option Kind := c.kinds.find? (·.name = name)

def locator? (c : Configuration) (name : String) : Option FallbackLocator :=
  (c.kind? name).map fun kind => ⟨⟨kind, c.paths.userData⟩, c.paths.sharedData⟩

/-- The directory of artifacts. -/
def stagingPath (c : Configuration) : Path := c.paths.userData.join c.paths.staging

def artifactPath (c : Configuration) (name : String) : Path :=
  c.stagingPath.join (Path.ofString (name ++ ".bin"))

/-- Puts the roots of sources behind a directory, unless they are absolute. -/
def anchor (c : Configuration) (dir : Path) : Configuration :=
  { c with
    paths :=
      { c.paths with
        userData := dir.join c.paths.userData
        sharedData := c.paths.sharedData.map dir.join } }

inductive Flaw where
  | missingField (name : String)
  | repeatedKind (name : String)
  | noInitialCapacity
  | smallGrowthFactor (factor : Nat)
  /-- Offsets do not reach so far. -/
  | unreachableCapacity (capacity : Nat)
  | largeInitialCapacity (initial limit : Nat)
  deriving DecidableEq

def Flaw.message : Flaw → String
  | missingField name => "missing required field: " ++ name
  | repeatedKind name =>
    "validation error: resource kind '" ++ name ++ "' is declared more than once"
  | noInitialCapacity => "validation error: arena.initial_capacity must be greater than zero"
  | smallGrowthFactor factor =>
    "validation error: arena.growth_factor must be at least 2, got " ++ toString factor
  | unreachableCapacity capacity =>
    "validation error: arena.max_capacity " ++ toString capacity ++ " exceeds the " ++
      toString Arena.maxCapacity ++ "-byte offset range"
  | largeInitialCapacity initial limit =>
    "validation error: arena.initial_capacity " ++ toString initial ++
      " exceeds arena.max_capacity " ++ toString limit

/-- The first flaw of kinds: one without a name, or with the name of one before it. -/
def kindsFlaw? (seen : List String) : List Kind → Option Flaw
  | [] => none
  | k :: rest =>
    if k.name = "" then some (.missingField "resource_kinds.name")
    else if k.name ∈ seen then some (.repeatedKind k.name)
    else kindsFlaw? (k.name :: seen) rest

/-- The first flaw of sizes. -/
def Sizes.flaw? (s : Sizes) : Option Flaw :=
  if s.initialCapacity = 0 then some .noInitialCapacity
  else if s.growthFactor < 2 then some (.smallGrowthFactor s.growthFactor)
  else if Arena.maxCapacity < s.maxCapacity then some (.unreachableCapacity s.maxCapacity)
  else if s.maxCapacity < s.initialCapacity then
    some (.largeInitialCapacity s.initialCapacity s.maxCapacity)
  else none

def flaw? (c : Configuration) : Option Flaw :=
  if c.paths.userData.isEmpty then some (.missingField "paths.user_data_dir")
  else (kindsFlaw? [] c.kinds).or c.sizes.flaw?

end Configuration

end Bindery
