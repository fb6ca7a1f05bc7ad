import Bindery.Toml.Number

/-!
# Dates and times in TOML

A date, a time of day, or both with an offset from universal time behind them. A date has to be in
the calendar; a minute may have a sixty-first second.
-/

namespace Bindery.Toml

def daysIn (year month : Nat) : Nat :=
  if month = 2 then
    if year % 4 = 0 && (year % 100 ≠ 0 || year % 400 = 0) then 29 else 28
  else if month = 4 || month = 6 || month = 9 || month = 11 then 30
  else 31

namespace Reader

/-- Reads a number of so many digits. -/
def fixed (count : Nat) : Reader Nat := fun cs =>
  let ds := cs.take count
  if ds.length = count && ds.all Char.isDigit then some (numeral 10 ds, cs.drop count) else none

/-- Reads a number of two digits that is in a range. -/
def between (lo hi : Nat) : Reader Unit := do
  let n ← fixed 2
  guard (lo ≤ n && n ≤ hi)

def date : Reader Unit := do
  let year ← fixed 4
  char '-'
  let month ← fixed 2
  guard (1 ≤ month && month ≤ 12)
  char '-'
  between 1 (daysIn year month)

def timeOfDay : Reader Unit := do
  between 0 23
  char ':'
  between 0 59
  char ':'
  between 0 60
  match ← get with
  | '.' :: rest =>
    guard (rest.head?.any Char.isDigit)
    set (rest.dropWhile Char.isDigit)
  | _ => pure ()

def offset : Reader Unit := do
  match ← get with
  | c :: rest =>
    set rest
    if c = 'Z' || c = 'z' then pure ()
    else
      guard (c = '+' || c = '-')
      between 0 23
      char ':'
      between 0 59
  | [] => failure

/-- Reads the time that belongs to a date. -/
def timeOfDate : Reader Unit := do
  match ← get with
  | c :: rest =>
    guard (c = 'T' || c = 't' || c = ' ')
    set rest
    timeOfDay
    offset <|> pure ()
  | [] => failure

def moment : Reader Value := do
  (do date; timeOfDate <|> pure ()) <|> timeOfDay
  pure .moment

end Reader

end Bindery.Toml
