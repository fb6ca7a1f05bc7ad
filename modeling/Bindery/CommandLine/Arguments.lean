/-!
# Arguments

How the words of a command line are read as switches and operands. A switch is written `--name`,
or `-n` by its letter; letters can be put together in one word. One that takes a value has it in
the same word, behind `=` or right behind the letter, or in the next one. After the word `--`
every word is an operand. No switch may be given twice.
-/

namespace Bindery.CommandLine

inductive Usage where
  /-- The words ask for help or for the version. -/
  | information
  | mistake
  deriving DecidableEq

def Usage.exitCode : Usage → Nat
  | information => 0
  | mistake => 2

inductive Switch.Role where
  | flag
  /-- A switch with a value, one of those that are accepted. -/
  | valued (accepts : String → Bool)
  | information

structure Switch where
  name : String
  letter : Option Char
  role : Switch.Role

/-- What words mean. -/
structure Grammar where
  switches : List Switch
  /-- The words that no further word is read after. -/
  commands : List String
  /-- The largest number of operands, if there is one. -/
  operandLimit : Option Nat

structure Arguments where
  flags : List String
  values : List (String × String)
  operands : List String
  /-- The switch read last, if it takes its value from a word of its own, with that value if it has
  been read. It is checked when the next switch or operand comes. -/
  pending : Option (Switch × Option String)
  onlyOperands : Bool

namespace Arguments

def none : Arguments := ⟨[], [], [], Option.none, false⟩

/-- Gives a switch its value. -/
def give (a : Arguments) (s : Switch) (value : String) : Except Usage Arguments :=
  let accepted :=
    match s.role with
    | .valued accepts => accepts value
    | _ => false
  if (a.values.lookup s.name).isNone && accepted then
    .ok { a with values := a.values ++ [(s.name, value)] }
  else .error .mistake

/-- Checks the switch read last. -/
def settle (a : Arguments) : Except Usage Arguments :=
  match a.pending with
  | Option.none => .ok a
  | some (_, Option.none) => .error .mistake
  | some (s, some value) => { a with pending := Option.none }.give s value

/-- Reads a switch with a value in the same word, or without one. -/
def switch (a : Arguments) (s : Switch) (value : Option String) : Except Usage Arguments := do
  let a ← a.settle
  match s.role, value with
  | .valued _, some value => a.give s value
  | .valued _, Option.none => .ok { a with pending := some (s, Option.none) }
  | .flag, Option.none =>
    if s.name ∈ a.flags then .error .mistake else .ok { a with flags := a.flags ++ [s.name] }
  | .information, Option.none => .error .information
  | _, some _ => .error .mistake

/-- Reads the letters of a word of switches. -/
def letters (g : Grammar) (a : Arguments) : List Char → Except Usage Arguments
  | [] => .ok a
  | c :: rest =>
    match g.switches.find? (·.letter = some c) with
    | Option.none => .error .mistake
    | some s =>
      match s.role, rest with
      | .valued _, [] => a.switch s Option.none
      | .valued _, '=' :: value => a.switch s (some (String.ofList value))
      | .valued _, value => a.switch s (some (String.ofList value))
      | _, rest =>
        match a.switch s Option.none with
        | .ok a => letters g a rest
        | .error e => .error e

def named (g : Grammar) (a : Arguments) (word : List Char) : Except Usage Arguments :=
  let name := String.ofList (word.takeWhile (· ≠ '='))
  let value :=
    match word.dropWhile (· ≠ '=') with
    | _ :: value => some (String.ofList value)
    | [] => Option.none
  match g.switches.find? (·.name = name) with
  | some s => a.switch s value
  | Option.none => .error .mistake

def operand (g : Grammar) (a : Arguments) (word : String) : Except Usage Arguments :=
  if g.operandLimit.any (· ≤ a.operands.length) then .error .mistake
  else do
    let a ← a.settle
    pure { a with operands := a.operands ++ [word] }

/-- Whether the next word can be the value of the switch read last. -/
def awaitsValue (a : Arguments) : Bool :=
  match a.pending with
  | some (_, Option.none) => !a.onlyOperands
  | _ => false

def word (g : Grammar) (a : Arguments) (w : String) : Except Usage Arguments :=
  if a.onlyOperands then a.operand g w
  else
    match w.toList with
    | ['-', '-'] => .ok { a with onlyOperands := true }
    | '-' :: '-' :: rest => a.named g rest
    | '-' :: c :: rest => a.letters g (c :: rest)
    | _ =>
      match a.pending with
      | some (s, Option.none) => .ok { a with pending := some (s, some w) }
      | _ => a.operand g w

/-- Reads words up to a command: what they say, the command and the words behind it. -/
def read (g : Grammar) (a : Arguments) :
    List String → Except Usage (Arguments × Option (String × List String))
  | [] => .ok (a, Option.none)
  | w :: rest =>
    if !a.onlyOperands && !a.awaitsValue && w ∈ g.commands then .ok (a, some (w, rest))
    else
      match a.word g w with
      | .ok a => read g a rest
      | .error e => .error e

def has (a : Arguments) (s : Switch) : Bool := s.name ∈ a.flags

def value? (a : Arguments) (s : Switch) : Option String := a.values.lookup s.name

end Arguments

end Bindery.CommandLine
