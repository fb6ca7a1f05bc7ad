/-!
# Reading TOML text

A reader takes what it reads off the front of the text that is left, or fails. Here are the
readers that everything else is written with: single characters, blanks, comments, ends of lines.
-/

namespace Bindery.Toml

/-- Reads something off the front of a text. -/
abbrev Reader := StateT (List Char) Option

/-- Whether a character may stand in a comment or a text. -/
def isPlain (c : Char) : Bool := c = '\t' || (' ' ≤ c && c ≠ '\x7f')

/-- Whether a character may stand in a key without quotes. -/
def isBare (c : Char) : Bool := c.isAlphanum || c = '-' || c = '_'

def dropBlanks (cs : List Char) : List Char := cs.dropWhile fun c => c = ' ' || c = '\t'

/-- What is left behind the end of a line. The end of the text ends a line too. -/
def lineBreak? : List Char → Option (List Char)
  | [] => some []
  | '\n' :: rest => some rest
  | '\r' :: '\n' :: rest => some rest
  | _ => none

namespace Reader

def char (c : Char) : Reader Unit := fun
  | d :: rest => if c = d then some ((), rest) else none
  | [] => none

def blanks : Reader Unit := fun cs => some ((), dropBlanks cs)

/-- Reads what may stand behind a statement: blanks, a comment, the end of the line. -/
def lineEnd : Reader Unit := fun cs =>
  match dropBlanks cs with
  | '#' :: rest => (lineBreak? (rest.dropWhile isPlain)).map ((), ·)
  | rest => (lineBreak? rest).map ((), ·)

end Reader

/-- Drops blanks, line breaks and comments, as they may stand in an array. -/
def dropTrivia (inComment : Bool) : List Char → List Char
  | [] => []
  | c :: rest =>
    if c = '\n' then dropTrivia false rest
    else if c = '\r' && rest.head? = some '\n' then dropTrivia false rest
    else if inComment then
      if isPlain c then dropTrivia true rest else c :: rest
    else if c = ' ' || c = '\t' then dropTrivia false rest
    else if c = '#' then dropTrivia true rest
    else c :: rest

/-- Reads blanks, line breaks and comments. -/
def Reader.trivia : Reader Unit := fun cs => some ((), dropTrivia false cs)

end Bindery.Toml
