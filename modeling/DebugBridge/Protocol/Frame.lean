import DebugBridge.Protocol.Packet

/-!
Frames on the wire: the length of the payload in decimal, a zero byte, the payload, and another
zero byte.  Decoding works on what has arrived so far, and either asks for more bytes or takes
something off the front.
-/

namespace DebugBridge
namespace Frame

/-- The greatest number of digits in a length. -/
def maxDigits : Nat := 10

/-- The size of the largest payload. -/
def maxSize : Nat := 64 * 1024 * 1024

/-- The outcome of decoding at the front of a buffer. -/
inductive Decoded where
  /-- More bytes are needed. -/
  | incomplete
  /-- A packet, and the number of bytes that it took. -/
  | packet (packet : Packet) (consumed : Nat)
  /-- A fault, and the number of bytes to leave out. -/
  | malformed (error : ProtocolError) (consumed : Nat)

/-- Whether a byte is an ASCII digit. -/
def isDigit (b : UInt8) : Bool := 48 ≤ b && b ≤ 57

/-- The length that a header announces. -/
def length? (header : List UInt8) : Option Nat :=
  if !header.isEmpty && header.length ≤ maxDigits && header.all isDigit then
    let length := header.foldl (fun value b => value * 10 + (b.toNat - 48)) 0
    if length ≤ maxSize then some length else none
  else none

/-- The packet in the bytes of a payload. -/
def packetOf (payload : List UInt8) : Except ProtocolError Packet :=
  match Text.utf8? payload with
  | .error _ => .error .invalidText
  | .ok text => Packet.parse text

/-- Decodes a payload of a given length that starts at `start` and that a zero byte has to
follow. -/
def decodeBody (start length : Nat) (body : List UInt8) : Decoded :=
  let consumed := start + length + 1
  match body.drop length with
  | [] => .incomplete
  | b :: _ =>
    if b != 0 then .malformed .missingTerminator consumed
    else
      match packetOf (body.take length) with
      | .ok packet => .packet packet consumed
      | .error error => .malformed error consumed

/-- Decodes the frame at the front of a buffer. -/
def decode (buffer : List UInt8) : Decoded :=
  let header := buffer.takeWhile (· != 0)
  match buffer.dropWhile (· != 0) with
  | [] =>
    if buffer.length > maxDigits || buffer.any (fun b => !isDigit b) then
      .malformed (.invalidLength (Text.textOf buffer)) buffer.length
    else .incomplete
  | _ :: body =>
    let start := header.length + 1
    match length? header with
    | none => .malformed (.invalidLength (Text.textOf header)) start
    | some length => decodeBody start length body

/-- The frame of a payload. -/
def encode (payload : List UInt8) : List UInt8 :=
  Text.bytesOf (toString payload.length) ++ 0 :: payload ++ [0]

/-- What decoding has taken off a buffer. -/
inductive Item where
  /-- A packet. -/
  | packet (packet : Packet)
  /-- A fault. -/
  | fault (error : ProtocolError)

/-- Whether decoding has taken something off a buffer, with the number of bytes. -/
def Decoded.item? : Decoded → Option (Item × Nat)
  | .incomplete => none
  | .packet found consumed => some (.packet found, consumed)
  | .malformed error consumed => some (.fault error, consumed)

theorem item?_decode_pos {buffer : List UInt8} {item : Item} {consumed : Nat}
    (nonempty : buffer ≠ []) (eq : (decode buffer).item? = some (item, consumed)) :
    0 < consumed := by
  have length : 0 < buffer.length := List.length_pos_iff.2 nonempty
  unfold decode at eq
  dsimp only at eq
  split at eq
  · split at eq
    · simp only [Decoded.item?, Option.some.injEq, Prod.mk.injEq] at eq
      omega
    · simp [Decoded.item?] at eq
  · split at eq
    · simp only [Decoded.item?, Option.some.injEq, Prod.mk.injEq] at eq
      omega
    · unfold decodeBody at eq
      dsimp only at eq
      split at eq
      · simp [Decoded.item?] at eq
      · split at eq
        · simp only [Decoded.item?, Option.some.injEq, Prod.mk.injEq] at eq
          omega
        · split at eq <;>
            (simp only [Decoded.item?, Option.some.injEq, Prod.mk.injEq] at eq; omega)

set_option linter.unusedVariables false in
/-- Everything that can be taken off a buffer, each with its number of bytes, and what is left. -/
def drain (buffer : List UInt8) : List (Item × Nat) × List UInt8 :=
  if nonempty : buffer = [] then ([], [])
  else
    match eq : (decode buffer).item? with
    | none => ([], buffer)
    | some (item, consumed) =>
      let (items, rest) := drain (buffer.drop consumed)
      ((item, consumed) :: items, rest)
termination_by buffer.length
decreasing_by
  have pos := item?_decode_pos nonempty eq
  have length : 0 < buffer.length := List.length_pos_iff.2 nonempty
  simp only [List.length_drop]
  omega

end Frame
end DebugBridge
