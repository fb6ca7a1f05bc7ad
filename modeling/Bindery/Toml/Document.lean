import Bindery.Toml.Moment

/-!
# TOML documents

A document is lines of statements: a pair of key and value, or a header that says which table the
pairs after it belong to. `parse?` answers the table that a document describes, if it is one.
-/

namespace Bindery.Toml

/-- How many levels deep arrays and inline tables may nest, and the parts a dotted key may have. -/
def nestingLimit : Nat := 79

namespace Reader

def keyPart : Reader String := fun cs =>
  match cs with
  | '"' :: _ | '\'' :: _ => line cs
  | _ =>
    let bare := cs.takeWhile isBare
    if bare = [] then none else some (String.ofList bare, cs.dropWhile isBare)

/-- Reads a key of at most so many parts, with the blanks around it. -/
def keyUpTo : Nat → Reader (List String)
  | 0 => failure
  | n + 1 => do
    blanks
    let part ← keyPart
    blanks
    match ← get with
    | '.' :: rest =>
      set rest
      return part :: (← keyUpTo n)
    | _ => return [part]

/-- Reads a key: the parts before the last one, and that one. -/
def key : Reader (List String × String) := do
  let parts ← keyUpTo nestingLimit
  match parts.getLast? with
  | some last => pure (parts.dropLast, last)
  | none => failure

def pair (value : Reader Value) : Reader ((List String × String) × Value) := do
  let k ← key
  char '='
  blanks
  return (k, ← value)

/-- Reads at most so many elements of an array and its end. A comma may stand behind the last. -/
def elementsUpTo (value : Reader Value) : Nat → Reader (List Value)
  | 0 => failure
  | n + 1 => do
    trivia
    match ← get with
    | ']' :: rest => set rest; pure []
    | _ =>
      let v ← value
      trivia
      match ← get with
      | ',' :: rest =>
        set rest
        return v :: (← elementsUpTo value n)
      | ']' :: rest => set rest; pure [v]
      | _ => failure

/-- Reads at most so many pairs of an inline table that has some already, and its end. -/
def pairsUpTo (value : Reader Value) (es : Entries) : Nat → Reader Entries
  | 0 => failure
  | n + 1 => do
    let ((path, last), v) ← pair value
    let es ← (es.insertPair path last v : Option Entries)
    blanks
    match ← get with
    | ',' :: rest =>
      set rest
      pairsUpTo value es n
    | '}' :: rest => set rest; pure es
    | _ => failure

/-- Reads an inline table of at most so many pairs behind its brace. -/
def inlineTable (value : Reader Value) (size : Nat) : Reader Value := do
  blanks
  match ← get with
  | '}' :: rest => set rest; pure (.table .literal [])
  | _ => return .table .literal (← pairsUpTo value [] size)

def word : Reader Value := fun
  | 't' :: 'r' :: 'u' :: 'e' :: rest => some (.boolean true, rest)
  | 'f' :: 'a' :: 'l' :: 's' :: 'e' :: rest => some (.boolean false, rest)
  | _ => none

/-- Reads a value with at most so many levels of arrays and inline tables, in a document of at most
`size` characters. -/
def value (size levels : Nat) : Reader Value := do
  match levels, ← get with
  | 0, '[' :: _ | 0, '\x7b' :: _ => failure
  | n + 1, '[' :: rest =>
    set rest
    return .array (← elementsUpTo (value size n) size)
  | n + 1, '\x7b' :: rest =>
    set rest
    inlineTable (value size n) size
  | _, '"' :: _ | _, '\'' :: _ => return .text (← text)
  | _, _ => word <|> moment <|> number

end Reader

/-- What has been read of a document. -/
structure Draft where
  entries : Entries
  /-- The keys that lead to the table that pairs belong to. -/
  current : List String

namespace Reader

/-- Reads a header behind its brackets, and opens what it names. -/
def header (brackets : Nat) (opening : String → Entries → Option Entries) (d : Draft) :
    Reader Draft := do
  let (path, last) ← key
  (List.replicate brackets ']').forM char
  lineEnd
  let entries ← (d.entries.modifyAt path (opening last) : Option Entries)
  return ⟨entries, path ++ [last]⟩

/-- Reads a statement, or an empty line, of a document of at most `size` characters. -/
def statement (size : Nat) (d : Draft) : Reader Draft := do
  match ← get with
  | '[' :: '[' :: rest => set rest; header 2 Entries.openElement d
  | '[' :: rest => set rest; header 1 Entries.openTable d
  | c :: _ =>
    if c = '#' || c = '\n' || c = '\r' then
      lineEnd
      return d
    else
      let ((path, last), v) ← pair (value size nestingLimit)
      lineEnd
      let entries ← (d.entries.modifyAt d.current (·.insertPair path last v) : Option Entries)
      return { d with entries }
  | [] => failure

/-- Reads at most so many statements and the end of the text. -/
def statementsUpTo (size : Nat) : Nat → Draft → Reader Draft
  | 0, _ => failure
  | n + 1, d => do
    blanks
    match ← get with
    | [] => pure d
    | _ => statementsUpTo size n (← statement size d)

end Reader

/-- The table that a document describes. A mark of byte order may stand in front. -/
def parse? (document : String) : Option Entries :=
  let cs := document.toList
  let cs := if cs.head? = some '\ufeff' then cs.tail else cs
  (Reader.statementsUpTo cs.length (cs.length + 1) ⟨[], []⟩ cs).map (·.1.entries)

end Bindery.Toml
