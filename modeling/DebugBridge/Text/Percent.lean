import DebugBridge.Text.Utf8

/-!
Percent escapes.  Encoding works on the bytes of a text and escapes every byte outside a set of
ASCII characters with two capital hexadecimal digits; decoding replaces each complete escape, in
either case, and keeps a percent sign that starts none.
-/

namespace DebugBridge
namespace Text
namespace Percent

/-- The capital hexadecimal digit for a value below 16. -/
def digit (value : Nat) : Char :=
  if value < 10 then Char.ofNat (48 + value) else Char.ofNat (55 + value)

/-- The value of a hexadecimal digit in either case. -/
def digit? (b : UInt8) : Option UInt8 :=
  if 48 ≤ b && b ≤ 57 then some (b - 48)
  else if 65 ≤ b && b ≤ 70 then some (b - 55)
  else if 97 ≤ b && b ≤ 102 then some (b - 87)
  else none

/-- The escape of one byte. -/
def escape (b : UInt8) : List Char := ['%', digit (b.toNat / 16), digit (b.toNat % 16)]

/-- A text with every byte escaped that is not an ASCII character in `keep`. -/
def encode (keep : Char → Bool) (text : List Char) : List Char :=
  (utf8 text).flatMap fun b =>
    if b < 128 && keep (Char.ofNat b.toNat) then [Char.ofNat b.toNat] else escape b

/-- Bytes with every complete escape replaced by the byte it stands for. -/
def decode : List UInt8 → List UInt8
  | [] => []
  | b :: high :: low :: rest =>
    if b == 37 then
      match digit? high, digit? low with
      | some h, some l => (h * 16 + l) :: decode rest
      | _, _ => b :: decode (high :: low :: rest)
    else b :: decode (high :: low :: rest)
  | b :: rest => b :: decode rest

end Percent
end Text
end DebugBridge
