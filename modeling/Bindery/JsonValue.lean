/-!
# Values as JSON text

Trees of numbers, texts and objects, printed over several lines with two spaces for every level.
Only what has to be escaped in a text is; everything else stands as it is.
-/

namespace Bindery

inductive JsonValue where
  | null
  | number (n : Int)
  | string (s : String)
  | object (fields : List (String × JsonValue))

namespace JsonValue

/-- The hexadecimal digits of a number, filled up with zeros to a width. -/
def lowerHex (width n : Nat) : String := String.ofList ((Nat.toDigits 16 n).leftpad width '0')

/-- How a character is written in a text. -/
def escapedChar (c : Char) : String :=
  if c = '"' then "\\\""
  else if c = '\\' then "\\\\"
  else if c = '\x08' then "\\b"
  else if c = '\x0c' then "\\f"
  else if c = '\n' then "\\n"
  else if c = '\r' then "\\r"
  else if c = '\t' then "\\t"
  else if c.toNat < 32 then "\\u" ++ lowerHex 4 c.toNat
  else String.singleton c

def quotedText (s : String) : String := "\"" ++ String.join (s.toList.map escapedChar) ++ "\""

/-- The start of a line at a depth. -/
def newline (depth : Nat) : String := "\n" ++ String.ofList (List.replicate (2 * depth) ' ')

mutual

def prettyAt (depth : Nat) : JsonValue → String
  | null => "null"
  | number n => toString n
  | string s => quotedText s
  | object [] => "\x7b\x7d"
  | object (field :: fields) =>
    "\x7b" ++ prettyField (depth + 1) field ++ prettyFields (depth + 1) fields ++ newline depth ++
      "\x7d"

def prettyField (depth : Nat) : String × JsonValue → String
  | (name, value) => newline depth ++ quotedText name ++ ": " ++ prettyAt depth value

def prettyFields (depth : Nat) : List (String × JsonValue) → String
  | [] => ""
  | field :: fields => "," ++ prettyField depth field ++ prettyFields depth fields

end

def pretty (v : JsonValue) : String := prettyAt 0 v

end JsonValue

end Bindery
