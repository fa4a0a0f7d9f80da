/-!
Decimal numerals: the digits of a number, and the reading of bounded numbers.  A numeral may have
a sign and leading zeros; it is refused when it is empty, holds anything but ASCII digits, or its
value is out of bounds.
-/

namespace DebugBridge
namespace Text

/-- Whether a character is an ASCII digit. -/
def isDigit (c : Char) : Bool := '0' ≤ c && c ≤ '9'

/-- The value of a run of ASCII digits, most significant first. -/
def digitsValue (digits : List Char) : Nat :=
  digits.foldl (fun value c => value * 10 + (c.toNat - '0'.toNat)) 0

/-- The value of a non-empty text that consists of ASCII digits. -/
def decimal? (text : List Char) : Option Nat :=
  if !text.isEmpty && text.all isDigit then some (digitsValue text) else none

/-- A numeral with an optional plus sign and a value of at most `limit`. -/
def bounded? (limit : Nat) (text : List Char) : Option Nat := do
  let value ← decimal? (match text with | '+' :: digits => digits | digits => digits)
  if value ≤ limit then some value else none

/-- A numeral with an optional sign and a value between `-(limit + 1)` and `limit`. -/
def boundedInt? (limit : Nat) (text : List Char) : Option Int :=
  match text with
  | '-' :: digits => do
    let value ← decimal? digits
    if value ≤ limit + 1 then some (-(value : Int)) else none
  | text => (bounded? limit text).map Int.ofNat

/-- The largest unsigned number of 8 bits. -/
def maxByte : Nat := 0xFF

/-- The largest unsigned number of 16 bits. -/
def maxPort : Nat := 0xFFFF

/-- The largest unsigned number of 32 bits. -/
def maxWord : Nat := 0xFFFFFFFF

/-- The largest signed number of 32 bits. -/
def maxInt : Nat := 0x7FFFFFFF

/-- The largest unsigned number of 64 bits. -/
def maxLong : Nat := 0xFFFFFFFFFFFFFFFF

/-- The largest signed number of 64 bits. -/
def maxSigned : Nat := 0x7FFFFFFFFFFFFFFF

/-- An unsigned 32-bit numeral. -/
def word? (text : String) : Option Nat := bounded? maxWord text.toList

/-- A signed 32-bit numeral. -/
def int? (text : String) : Option Int := boundedInt? maxInt text.toList

/-- A signed 64-bit numeral. -/
def long? (text : String) : Option Int := boundedInt? maxSigned text.toList

end Text
end DebugBridge
