import Bindery.Toml.Reader

/-!
# Texts in TOML

A text stands between double quotes, with escapes, or between single quotes, as it is. Between
three quotes on each side it may run over several lines: a line break right behind the opening
quotes is dropped, every other one is a single line feed, and up to two quotes may stand before the
closing ones.
-/

namespace Bindery.Toml

def hexDigit? (c : Char) : Option Nat :=
  if c.isDigit then some (c.toNat - 48)
  else if 'a' ≤ c && c ≤ 'f' then some (c.toNat - 87)
  else if 'A' ≤ c && c ≤ 'F' then some (c.toNat - 55)
  else none

/-- The character with the number that so many hexadecimal digits write. -/
def scalar? (count : Nat) (digits : List Char) : Option Char := do
  let values ← digits.mapM hexDigit?
  guard (values.length = count)
  let n := values.foldl (fun n d => 16 * n + d) 0
  guard (n < 0xd800 || (0xdfff < n && n < 0x110000))
  some (Char.ofNat n)

def shortEscape? : Char → Option Char
  | 'b' => some '\x08'
  | 't' => some '\t'
  | 'n' => some '\n'
  | 'f' => some '\x0c'
  | 'r' => some '\r'
  | '"' => some '"'
  | '\\' => some '\\'
  | _ => none

/-- Reads what comes behind a backslash. -/
def escaped? : List Char → Option (Char × List Char)
  | [] => none
  | c :: rest =>
    if c = 'u' then (scalar? 4 (rest.take 4)).map (·, rest.drop 4)
    else if c = 'U' then (scalar? 8 (rest.take 8)).map (·, rest.drop 8)
    else (shortEscape? c).map (·, rest)

theorem length_of_escaped? {cs rest : List Char} {c : Char} (h : escaped? cs = some (c, rest)) :
    rest.length < cs.length := by
  cases cs with
  | nil => cases h
  | cons d ds =>
    simp only [escaped?] at h
    split at h
    · obtain ⟨_, _, h⟩ := Option.map_eq_some_iff.1 h
      cases h
      simp only [List.length_drop, List.length_cons]
      omega
    · split at h <;> obtain ⟨_, _, h⟩ := Option.map_eq_some_iff.1 h <;> cases h <;>
        simp only [List.length_drop, List.length_cons] <;> omega

/-- A text with a character more in front. -/
def withFront (c : Char) (r : Option (List Char × List Char)) : Option (List Char × List Char) :=
  r.map fun (text, rest) => (c :: text, rest)

/-- Reads the rest of a text between double quotes. -/
def quotedLine : List Char → Option (List Char × List Char)
  | [] => none
  | c :: rest =>
    if c = '"' then some ([], rest)
    else if c = '\\' then
      match h : escaped? rest with
      | some (d, after) =>
        have := length_of_escaped? h
        withFront d (quotedLine after)
      | none => none
    else if isPlain c then withFront c (quotedLine rest)
    else none
termination_by cs => cs.length

/-- The number of quotes in front, if they end a text over several lines, less the three that do. -/
def closing? (quote : Char) (cs : List Char) : Option Nat :=
  let run := (cs.takeWhile (· = quote)).length
  if run < 3 then none else some (min (run - 3) 2)

/-- Whether a backslash in front of this is at the end of its line. -/
def endsLine (cs : List Char) : Bool :=
  match dropBlanks cs with
  | '\n' :: _ => true
  | '\r' :: '\n' :: _ => true
  | _ => false

/-- Reads the rest of a text between three double quotes. Behind a backslash at the end of a line,
blanks and line breaks are skipped. -/
def quotedLines (skipping : Bool) : List Char → Option (List Char × List Char)
  | [] => none
  | c :: rest =>
    match closing? '"' (c :: rest) with
    | some more => some (List.replicate more '"', (c :: rest).drop (more + 3))
    | none =>
      if c = '\r' && rest.head? = some '\n' then quotedLines skipping rest
      else if c = '\n' then
        if skipping then quotedLines true rest else withFront c (quotedLines false rest)
      else if skipping && (c = ' ' || c = '\t') then quotedLines true rest
      else if c = '\\' then
        if endsLine rest then quotedLines true rest
        else match h : escaped? rest with
          | some (d, after) =>
            have := length_of_escaped? h
            withFront d (quotedLines false after)
          | none => none
      else if isPlain c then withFront c (quotedLines false rest)
      else none
termination_by cs => cs.length

def rawLine : List Char → Option (List Char × List Char)
  | [] => none
  | c :: rest =>
    if c = '\'' then some ([], rest)
    else if isPlain c then withFront c (rawLine rest)
    else none

/-- Reads the rest of a text between three single quotes. -/
def rawLines : List Char → Option (List Char × List Char)
  | [] => none
  | c :: rest =>
    match closing? '\'' (c :: rest) with
    | some more => some (List.replicate more '\'', (c :: rest).drop (more + 3))
    | none =>
      if c = '\r' && rest.head? = some '\n' then rawLines rest
      else if c = '\n' || isPlain c then withFront c (rawLines rest)
      else none

/-- What comes behind a line break in front, if there is one. -/
def dropLineBreak : List Char → List Char
  | '\n' :: rest => rest
  | '\r' :: '\n' :: rest => rest
  | cs => cs

namespace Reader

/-- Reads a text on one line. -/
def line : Reader String := fun
  | '"' :: rest => (quotedLine rest).map fun (text, rest) => (String.ofList text, rest)
  | '\'' :: rest => (rawLine rest).map fun (text, rest) => (String.ofList text, rest)
  | _ => none

def text : Reader String := fun
  | '"' :: '"' :: '"' :: rest =>
    (quotedLines false (dropLineBreak rest)).map fun (text, rest) => (String.ofList text, rest)
  | '\'' :: '\'' :: '\'' :: rest =>
    (rawLines (dropLineBreak rest)).map fun (text, rest) => (String.ofList text, rest)
  | cs => line cs

end Reader

end Bindery.Toml
