import Bindery.Text.Unpictured
import Bindery.Text.Utf8

/-!
# Quoted text

Bytes between double quotes in a form that shows what cannot be seen: double quotes and backslashes
are escaped, line ends and tabs have short names, characters without a picture are given by their
number, and bytes that are no text by their value.
-/

namespace Bindery.Text

def quotedChar (c : Char) : String :=
  if c = '\x00' then "\\0"
  else if c = '\t' then "\\t"
  else if c = '\r' then "\\r"
  else if c = '\n' then "\\n"
  else if c = '\\' then "\\\\"
  else if c = '"' then "\\\""
  else if isUnpictured c then
    "\\u\x7b" ++ String.ofList (Nat.toDigits 16 c.toNat) ++ "\x7d"
  else String.singleton c

/-- Two hexadecimal digits, letters as capitals. -/
def upperHex (b : UInt8) : String :=
  String.ofList (((Nat.toDigits 16 b.toNat).leftpad 2 '0').map Char.toUpper)

/-- How a piece is written between quotes. -/
def quotedPiece : Piece → String
  | .char c => quotedChar c
  | .broken bytes => String.join (bytes.map fun b => "\\x" ++ upperHex b)

/-- Bytes between quotes. -/
def quoted (bytes : List UInt8) : String :=
  "\"" ++ String.join ((pieces bytes).map quotedPiece) ++ "\""

end Bindery.Text
