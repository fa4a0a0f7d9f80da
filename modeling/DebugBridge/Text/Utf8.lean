/-!
Text as bytes.  A byte string is cut into pieces, each a character or a maximal run of bytes that
begins no character; reading strictly stops at the first broken piece and says where it is, and
reading leniently puts one replacement character in the place of each.
-/

namespace DebugBridge
namespace Text

/-- The bytes of a text. -/
def utf8 (text : List Char) : List UInt8 := text.flatMap String.utf8EncodeChar

/-- The bytes of a string. -/
def bytesOf (text : String) : List UInt8 := utf8 text.toList

/-- The number of bytes that a text takes. -/
def byteLength (text : List Char) : Nat := text.foldl (fun size c => size + c.utf8Size) 0

/-- One piece of a byte string. -/
inductive Piece where
  /-- The bytes of a character. -/
  | char (c : Char)
  /-- So many bytes that no continuation turns into a character. -/
  | broken (size : Nat)
  /-- So many bytes of a character that the end of the byte string breaks off. -/
  | cut (size : Nat)
  deriving DecidableEq, Repr

/-- The number of bytes in a piece. -/
def Piece.size : Piece → Nat
  | .char c => c.utf8Size
  | .broken size => size
  | .cut size => size

/-- Whether a byte continues a character. -/
def isTail (b : UInt8) : Bool := 0x80 ≤ b && b ≤ 0xBF

/-- The six bits that a continuing byte contributes. -/
def tailBits (b : UInt8) : Nat := b.toNat - 0x80

/-- What the first byte of a character fixes: its bits, the bounds of the second byte and the
number of bytes after the second. -/
structure Lead where
  /-- Bits that the first byte contributes. -/
  bits : Nat
  /-- Least second byte. -/
  low : UInt8
  /-- Greatest second byte. -/
  high : UInt8
  /-- Number of bytes that follow the second one. -/
  more : Nat

/-- The first byte of a character of several bytes, if it is one. -/
def lead? (b : UInt8) : Option Lead :=
  if b < 0xC2 then none
  else if b ≤ 0xDF then some ⟨b.toNat - 0xC0, 0x80, 0xBF, 0⟩
  else if b == 0xE0 then some ⟨0, 0xA0, 0xBF, 1⟩
  else if b == 0xED then some ⟨0xD, 0x80, 0x9F, 1⟩
  else if b ≤ 0xEF then some ⟨b.toNat - 0xE0, 0x80, 0xBF, 1⟩
  else if b == 0xF0 then some ⟨0, 0x90, 0xBF, 2⟩
  else if b ≤ 0xF3 then some ⟨b.toNat - 0xF0, 0x80, 0xBF, 2⟩
  else if b == 0xF4 then some ⟨4, 0x80, 0x8F, 2⟩
  else none

/-- The piece formed by `more` continuing bytes after `seen` bytes that gave the bits `value`. -/
def pieceTail (value seen : Nat) : Nat → List UInt8 → Piece
  | 0, _ => .char (Char.ofNat value)
  | _ + 1, [] => .cut seen
  | more + 1, b :: bytes =>
    if isTail b then pieceTail (value * 64 + tailBits b) (seen + 1) more bytes else .broken seen

/-- The piece at the head of a non-empty byte string. -/
def pieceAt (b : UInt8) (bytes : List UInt8) : Piece :=
  if b < 0x80 then .char (Char.ofNat b.toNat)
  else
    match lead? b with
    | none => .broken 1
    | some lead =>
      match bytes with
      | [] => .cut 1
      | second :: bytes =>
        if lead.low ≤ second && second ≤ lead.high then
          pieceTail (lead.bits * 64 + tailBits second) 2 lead.more bytes
        else .broken 1

/-- The pieces of a byte string, in order. -/
def pieces : List UInt8 → List Piece
  | [] => []
  | b :: bytes =>
    let piece := pieceAt b bytes
    piece :: pieces (bytes.drop (piece.size - 1))
termination_by bytes => bytes.length
decreasing_by simp only [List.length_drop, List.length_cons]; omega

/-- Why a byte string is no text. -/
inductive Utf8Error where
  /-- So many bytes from an index on can begin no character. -/
  | invalid (size index : Nat)
  /-- The last character, from an index on, is broken off. -/
  | incomplete (index : Nat)
  deriving DecidableEq, Repr

/-- The wording of a decoding error. -/
def Utf8Error.message : Utf8Error → String
  | .invalid size index =>
    "invalid utf-8 sequence of " ++ toString size ++ " bytes from index " ++ toString index
  | .incomplete index => "incomplete utf-8 byte sequence from index " ++ toString index

/-- The characters of a list of pieces, or the first broken one; `index` is where they start. -/
def strictFrom (index : Nat) : List Piece → Except Utf8Error (List Char)
  | [] => .ok []
  | .char c :: rest => do
    let chars ← strictFrom (index + c.utf8Size) rest
    return c :: chars
  | .broken size :: _ => .error (.invalid size index)
  | .cut _ :: _ => .error (.incomplete index)

/-- The text that a byte string encodes, or the first place where it encodes none. -/
def utf8? (bytes : List UInt8) : Except Utf8Error (List Char) := strictFrom 0 (pieces bytes)

/-- The text of a byte string, with one replacement character for each broken piece. -/
def utf8Lossy (bytes : List UInt8) : List Char :=
  (pieces bytes).map fun
    | .char c => c
    | _ => '\uFFFD'

/-- The string of a byte string, with one replacement character for each broken piece. -/
def textOf (bytes : List UInt8) : String := String.ofList (utf8Lossy bytes)

end Text
end DebugBridge
