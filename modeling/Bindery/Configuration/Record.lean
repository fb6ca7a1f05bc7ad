import Bindery.Configuration.Basic
import Bindery.Toml.Document

/-!
# Configurations in TOML

How the tables of a document are read as a configuration. A record is written as a table or as an
array of its fields in order; fields that are left out take their standard values where they have
one, and whatever else there is does not matter.
-/

namespace Bindery.Configuration

open Toml (Value)

/-- A record as it is written. -/
inductive Record where
  | named (entries : Toml.Entries)
  | listed (fields : List Value)

namespace Record

/-- The record that a value is. A date or time is one without any field that matters. -/
def ofValue? : Value → Option Record
  | .table _ entries => some (.named entries)
  | .moment => some (.named [])
  | v => v.elements?.map .listed

/-- The field with a name and a position. -/
def get? (r : Record) (position : Nat) (name : String) : Option Value :=
  match r with
  | named entries => entries.lookup name
  | listed fields => fields[position]?

/-- Reads a field, or takes its standard value. -/
def field? {α : Type} (r : Record) (position : Nat) (name : String) (standard : Option α)
    (read : Value → Option α) : Option α :=
  match r.get? position name with
  | some v => read v
  | none => standard

end Record

def text? : Value → Option String
  | .text content => some content
  | _ => none

def size? : Value → Option Nat
  | .integer n => if 0 ≤ n then some n.toNat else none
  | _ => none

def flag? : Value → Option Bool
  | .boolean b => some b
  | _ => none

def path? (v : Value) : Option Path := (text? v).map Path.ofString

def Paths.ofValue? (v : Value) : Option Paths := do
  let r ← Record.ofValue? v
  let userData ← r.field? 0 "user_data_dir" none path?
  let sharedData ← r.field? 1 "shared_data_dir" (some none) fun v => (path? v).map some
  let staging ← r.field? 2 "staging_dir" (some (Path.ofString "build")) path?
  pure { userData, sharedData, staging }

def kindOfValue? (v : Value) : Option Kind := do
  let r ← Record.ofValue? v
  let name ← r.field? 0 "name" none text?
  let before ← r.field? 1 "prefix" (some "") text?
  let after ← r.field? 2 "suffix" (some "") text?
  pure { name, before, after }

def kindsOfValue? (v : Value) : Option (List Kind) := do (← v.elements?).mapM kindOfValue?

/-- One MiB to begin with, twice as much every time, up to the largest capacity. -/
def Sizes.standard : Sizes := ⟨0x100000, 2, Arena.maxCapacity⟩

def Sizes.ofValue? (v : Value) : Option Sizes := do
  let r ← Record.ofValue? v
  let initialCapacity ← r.field? 0 "initial_capacity" (some standard.initialCapacity) size?
  let growthFactor ← r.field? 1 "growth_factor" (some standard.growthFactor) size?
  let maxCapacity ← r.field? 2 "max_capacity" (some standard.maxCapacity) size?
  pure { initialCapacity, growthFactor, maxCapacity }

/-- Reads whether checksums are compared. -/
def verifyChecksumsOfValue? (v : Value) : Option Bool := do
  (← Record.ofValue? v).field? 0 "verify_checksums" (some true) flag?

def Distribution.ofValue? (v : Value) : Option Distribution := do
  let r ← Record.ofValue? v
  let name ← r.field? 0 "name" (some "") text?
  let codeName ← r.field? 1 "code_name" (some "") text?
  let version ← r.field? 2 "version" (some "") text?
  pure { name, codeName, version }

/-- Reads a configuration from the tables of a document. -/
def ofEntries? (entries : Toml.Entries) : Option Configuration := do
  let r := Record.named entries
  let paths ← r.field? 0 "paths" none Paths.ofValue?
  let kinds ← r.field? 1 "resource_kinds" (some []) kindsOfValue?
  let sizes ← r.field? 2 "arena" (some .standard) Sizes.ofValue?
  let verifyChecksums ← r.field? 3 "freshness" (some true) verifyChecksumsOfValue?
  let distribution ← r.field? 4 "distribution" (some ⟨"", "", ""⟩) Distribution.ofValue?
  pure { paths, kinds, sizes, verifyChecksums, distribution }

end Bindery.Configuration
