import Bindery.Toml.Text
import Bindery.Toml.Value

/-!
# Numbers in TOML

Integers fit into 64 bits, signed; a leading zero is refused, hexadecimal, octal and binary ones
have no sign. Underscores stand between digits only. A number with a fraction or an exponent must
not be too large for a double.
-/

namespace Bindery.Toml

/-- Takes digits off the front of a text, and single underscores between digits. -/
def moreDigits (isDigit : Char → Bool) : List Char → List Char × List Char
  | [] => ([], [])
  | c :: rest =>
    if isDigit c then
      let (digits, rest) := moreDigits isDigit rest
      (c :: digits, rest)
    else if c = '_' && rest.head?.any isDigit then moreDigits isDigit rest
    else ([], c :: rest)

namespace Reader

def digits (isDigit : Char → Bool) : Reader (List Char) := fun cs =>
  if cs.head?.any isDigit then some (moreDigits isDigit cs) else none

/-- Reads a sign, if there is one: whether it is a minus. -/
def sign : Reader (Option Bool) := fun
  | '+' :: rest => some (some false, rest)
  | '-' :: rest => some (some true, rest)
  | cs => some (none, cs)

def whole : Reader (List Char) := fun
  | '0' :: rest => some (['0'], rest)
  | cs => digits Char.isDigit cs

/-- Reads the digits of a fraction, if there is one. -/
def fraction : Reader (Option (List Char)) := fun
  | '.' :: rest => (digits Char.isDigit rest).map fun (ds, rest) => (some ds, rest)
  | cs => some (none, cs)

end Reader

/-- The largest number that is told from larger ones. -/
def numeralLimit : Nat := 0x10000000000000000

/-- The number that digits write, or the limit if that is less. -/
def numeral (base : Nat) (digits : List Char) : Nat :=
  digits.foldl (fun n d => min (base * n + (hexDigit? d).getD 0) numeralLimit) 0

/-- Reads an exponent, if there is one. -/
def Reader.exponent : Reader (Option Int) := fun
  | c :: rest =>
    if c = 'e' || c = 'E' then
      (do
        let minus ← sign
        let n := numeral 10 (← digits Char.isDigit)
        pure (some (if minus = some true then -(n : Int) else n)) : Reader (Option Int)) rest
    else some (none, c :: rest)
  | [] => some (none, [])

/-- An integer, if it fits into 64 bits. -/
def Value.integer? (n : Int) : Option Value :=
  if -0x8000000000000000 ≤ n && n < 0x8000000000000000 then some (.integer n) else none

/-- The digits of the least number that is rounded up beyond the largest double. -/
def doubleLimit : List Char := Nat.toDigits 10 (Nat.pow 2 1024 - Nat.pow 2 970)

/-- Whether digits times a power of ten reach the limit of doubles. With as many digits before the
point as the limit has, the first digit that differs decides. -/
def isHuge (digits : List Char) (exponent : Int) : Bool :=
  let significant := digits.dropWhile (· = '0')
  let size := significant.length + exponent
  significant ≠ [] && (doubleLimit.length < size ||
    (size = doubleLimit.length && !decide (significant < doubleLimit)))

namespace Reader

/-- Reads an integer in another base behind its mark. -/
def based (base : Nat) : Reader Value := do
  let isDigit (c : Char) : Bool := (hexDigit? c).any (· < base)
  (Value.integer? (numeral base (← digits isDigit)) : Option Value)

/-- Reads a number in decimal notation. -/
def decimal : Reader Value := do
  let minus ← sign
  match ← get with
  | 'i' :: 'n' :: 'f' :: rest => set rest; pure .float
  | 'n' :: 'a' :: 'n' :: rest => set rest; pure .float
  | _ =>
    let w ← whole
    let f ← fraction
    let e ← exponent
    if f.isNone && e.isNone then
      let n : Int := numeral 10 w
      (Value.integer? (if minus = some true then -n else n) : Option Value)
    else
      let f := f.getD []
      guard (minus = some true || !isHuge (w ++ f) (e.getD 0 - f.length))
      pure .float

def number : Reader Value := fun
  | '0' :: 'x' :: rest => based 16 rest
  | '0' :: 'o' :: rest => based 8 rest
  | '0' :: 'b' :: rest => based 2 rest
  | cs => decimal cs

end Reader

end Bindery.Toml
