import Bindery.Record

/-!
# Metadata of artifacts

What an artifact says about how it was built: the build record, and entries of text under keys.
Keys form a tree by their slashes.
-/

namespace Bindery

/-- The build record and further entries. -/
structure Metadata where
  record : BuildRecord
  entries : SortedMap String String
  deriving DecidableEq

namespace Metadata

def ofRecord (record : BuildRecord) : Metadata := ⟨record, .empty⟩

instance : Inhabited Metadata := ⟨ofRecord default⟩

def insert (m : Metadata) (key value : String) : Metadata :=
  { m with entries := m.entries.insert key value }

def get? (m : Metadata) (key : String) : Option String := m.entries.get? key

/-- What follows a stem and a slash in a key that begins with them. -/
def restOfKey? (stem key : String) : Option String :=
  if (stem.toList ++ ['/']).isPrefixOf key.toList then
    some (String.ofList (key.toList.drop (stem.toList.length + 1)))
  else none

/-- The entries whose keys begin with a stem and a slash, by the rest of the key. -/
def under (m : Metadata) (stem : String) : List (String × String) :=
  m.entries.entries.filterMap fun e => (restOfKey? stem e.1).map (·, e.2)

end Metadata

end Bindery
