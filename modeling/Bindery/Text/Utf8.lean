/-!
# Text as bytes

`encode` and `decode?` go between text and its UTF-8 form; `decode?` accepts exactly what `encode`
writes (`decode?_eq_some_iff`). Bytes that are no text split into `pieces`: characters, and
between them the longest runs that begin a character and break off. Shown as text, each such run
becomes one replacement character (`lossy`).
-/

namespace Bindery.Text

/-- The UTF-8 form of a text. -/
def encode (s : String) : List UInt8 := s.toUTF8.data.toList

def decode? (bytes : List UInt8) : Option String := String.fromUTF8? ⟨bytes.toArray⟩

@[simp] theorem decode?_encode (s : String) : decode? (encode s) = some s := by
  have h : (⟨(encode s).toArray⟩ : ByteArray) = s.toByteArray := by simp [encode]
  simp only [decode?, String.fromUTF8?, h, s.isValidUTF8, dif_pos]
  rfl

theorem decode?_eq_some_iff {bytes : List UInt8} {s : String} :
    decode? bytes = some s ↔ bytes = encode s := by
  refine ⟨fun h => ?_, fun h => h ▸ decode?_encode s⟩
  unfold decode? String.fromUTF8? at h
  split at h
  · cases h
    simp [encode, String.fromUTF8]
  · cases h

theorem encode_append (s t : String) : encode (s ++ t) = encode s ++ encode t := by
  simp [encode]

/-- The character that begins a byte string, if the bytes of one do. -/
def headChar? (bytes : List UInt8) : Option Char :=
  (ByteArray.mk (bytes.take 4).toArray).utf8DecodeChar? 0

def within (lo hi b : UInt8) : Bool := lo ≤ b && b ≤ hi

/-- Whether a byte continues a character of more bytes than one. -/
def isTail (b : UInt8) : Bool := within 0x80 0xBF b

/-- Whether `b` may stand second in a character of three or four bytes that begins with `a`. -/
def isSecond (a b : UInt8) : Bool :=
  if a = 0xE0 then within 0xA0 0xBF b
  else if a = 0xED then within 0x80 0x9F b
  else if a = 0xF0 then within 0x90 0xBF b
  else if a = 0xF4 then within 0x80 0x8F b
  else isTail b

/-- How many bytes after `a` go with it into a character that breaks off. -/
def brokenTail (a : UInt8) : List UInt8 → Nat
  | b :: rest =>
    if within 0xE0 0xEF a && isSecond a b then 1
    else if within 0xF0 0xF4 a && isSecond a b then
      match rest with
      | c :: _ => if isTail c then 2 else 1
      | [] => 1
    else 0
  | [] => 0

/-- A part of a byte string: a character, or a run of bytes that is none. -/
inductive Piece where
  | char (c : Char)
  | broken (bytes : List UInt8)
  deriving DecidableEq

/-- Splits bytes into characters and the longest broken beginnings of characters. -/
def pieces : List UInt8 → List Piece
  | [] => []
  | b :: rest =>
    match headChar? (b :: rest) with
    | some c => .char c :: pieces (rest.drop (c.utf8Size - 1))
    | none => .broken (b :: rest.take (brokenTail b rest)) :: pieces (rest.drop (brokenTail b rest))
termination_by bytes => bytes.length
decreasing_by all_goals simp only [List.length_drop, List.length_cons]; omega

/-- What a piece looks like in text. -/
def Piece.shown : Piece → Char
  | .char c => c
  | .broken _ => '\uFFFD'

/-- Bytes shown as text, with a replacement character for every broken run. -/
def lossy (bytes : List UInt8) : String := String.ofList ((pieces bytes).map Piece.shown)

end Bindery.Text
