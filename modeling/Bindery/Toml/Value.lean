/-!
# Values of TOML documents

What a document says is a table of values under keys. A table remembers how it came to be, since
that decides who may still add to it; `insertPair`, `openTable` and `openElement` are the ways to
add and refuse what the format forbids: a key given twice, a table opened twice, anything added to
a table that was written as a value.
-/

namespace Bindery.Toml

/-- How a table came to be. -/
inductive Origin where
  /-- It is written between braces. -/
  | literal
  /-- A header opened it. -/
  | header
  /-- A header opened a table inside it. -/
  | implied
  /-- It is in the front part of a dotted key. -/
  | dotted
  deriving DecidableEq

/-- A value. Of a number with a fraction and of a date or time, only that it is one. -/
inductive Value where
  | text (content : String)
  | integer (n : Int)
  | boolean (b : Bool)
  | float
  | moment
  | array (elements : List Value)
  /-- An array of tables that headers open one by one: the last one, and those before it with the
  latest in front. -/
  | series (last : List (String × Value)) (earlier : List (List (String × Value)))
  | table (origin : Origin) (entries : List (String × Value))

def Value.elements? : Value → Option (List Value)
  | .array elements => some elements
  | .series last earlier => some ((last :: earlier).reverse.map (.table .header))
  | _ => none

abbrev Entries := List (String × Value)

namespace Entries

/-- Puts a value under a key, in place of the one there is. -/
def put (key : String) (v : Value) : Entries → Entries
  | [] => [(key, v)]
  | (k, w) :: rest => if k = key then (k, v) :: rest else (k, w) :: put key v rest

/-- Adds a pair at the end of a dotted key. The key has to be new, and the tables on the way must
be open to it: one made by dotted keys is, one that headers implied only for passing through. -/
def insertPair : List String → String → Value → Entries → Option Entries
  | [], key, v, es => if (es.lookup key).isNone then some (put key v es) else none
  | k :: rest, key, v, es =>
    match es.lookup k with
    | none => (insertPair rest key v []).map fun sub => put k (.table .dotted sub) es
    | some (.table .dotted sub) =>
      (insertPair rest key v sub).map fun sub => put k (.table .dotted sub) es
    | some (.table .implied sub) =>
      if rest = [] then none
      else (insertPair rest key v sub).map fun sub => put k (.table .implied sub) es
    | some (.series last earlier) =>
      if rest = [] then none
      else (insertPair rest key v last).map fun last => put k (.series last earlier) es
    | some _ => none

/-- Changes the table that a header's keys lead to. Missing tables on the way are implied; a series
on the way stands for its last table. -/
def modifyAt : List String → (Entries → Option Entries) → Entries → Option Entries
  | [], f, es => f es
  | k :: rest, f, es =>
    match es.lookup k with
    | none => (modifyAt rest f []).map fun sub => put k (.table .implied sub) es
    | some (.table .literal _) => none
    | some (.table origin sub) => (modifyAt rest f sub).map fun sub => put k (.table origin sub) es
    | some (.series last earlier) =>
      (modifyAt rest f last).map fun last => put k (.series last earlier) es
    | some _ => none

/-- Opens a table under a key: a new one, or one that was only implied so far. -/
def openTable (key : String) (es : Entries) : Option Entries :=
  match es.lookup key with
  | none => some (put key (.table .header []) es)
  | some (.table .implied sub) => some (put key (.table .header sub) es)
  | some _ => none

/-- Opens the next table of a series under a key. -/
def openElement (key : String) (es : Entries) : Option Entries :=
  match es.lookup key with
  | none => some (put key (.series [] []) es)
  | some (.series last earlier) => some (put key (.series [] (last :: earlier)) es)
  | some _ => none

end Entries

end Bindery.Toml
