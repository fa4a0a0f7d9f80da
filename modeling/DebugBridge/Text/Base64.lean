import DebugBridge.Text.Utf8

/-!
Padded base-64 text.  Three bytes become four symbols; decoding accepts the canonical form alone,
with all padding present and the unused bits of the last symbol zero, and otherwise names the
fault and its offset.
-/

namespace DebugBridge
namespace Text
namespace Base64

/-- The symbol for a value below 64. -/
def symbol (value : Nat) : Char :=
  if value < 26 then Char.ofNat (65 + value)
  else if value < 52 then Char.ofNat (97 + (value - 26))
  else if value < 62 then Char.ofNat (48 + (value - 52))
  else if value == 62 then '+'
  else '/'

/-- The value of a symbol. -/
def value? (b : UInt8) : Option Nat :=
  let code := b.toNat
  if 65 ≤ code && code ≤ 90 then some (code - 65)
  else if 97 ≤ code && code ≤ 122 then some (code - 97 + 26)
  else if 48 ≤ code && code ≤ 57 then some (code - 48 + 52)
  else if code == 43 then some 62
  else if code == 47 then some 63
  else none

/-- The padding symbol, as a byte. -/
def pad : UInt8 := 61

/-- The padded base-64 text of a byte string. -/
def encode : List UInt8 → List Char
  | [] => []
  | [a] => [symbol (a.toNat / 4), symbol (a.toNat % 4 * 16), '=', '=']
  | [a, b] =>
    [symbol (a.toNat / 4), symbol (a.toNat % 4 * 16 + b.toNat / 16), symbol (b.toNat % 16 * 4), '=']
  | a :: b :: c :: rest =>
    symbol (a.toNat / 4) :: symbol (a.toNat % 4 * 16 + b.toNat / 16) ::
      symbol (b.toNat % 16 * 4 + c.toNat / 64) :: symbol (c.toNat % 64) :: encode rest

/-- Why a text is not canonical base-64. -/
inductive Fault where
  /-- A byte that is no symbol where one is needed. -/
  | symbol (byte : UInt8) (offset : Nat)
  /-- A lone symbol at the end. -/
  | length (size : Nat)
  /-- A last symbol with unused bits set. -/
  | lastSymbol (byte : UInt8) (offset : Nat)
  /-- Padding that is missing or short. -/
  | padding
  deriving DecidableEq, Repr

/-- The wording of a fault. -/
def Fault.message : Fault → String
  | .symbol byte offset =>
    "Invalid symbol " ++ toString byte.toNat ++ ", offset " ++ toString offset ++ "."
  | .length size => "Invalid input length: " ++ toString size
  | .lastSymbol byte offset =>
    "Invalid last symbol " ++ toString byte.toNat ++ ", offset " ++ toString offset ++ "."
  | .padding => "Invalid padding"

/-- The values of a run of symbols that starts at `offset`, or the first byte that is none. -/
def values (offset : Nat) : List UInt8 → Except Fault (List Nat)
  | [] => .ok []
  | b :: rest =>
    match value? b with
    | none => .error (.symbol b offset)
    | some value => do
      let more ← values (offset + 1) rest
      return value :: more

/-- The bytes of complete groups of four values. -/
def groups : List Nat → List UInt8
  | a :: b :: c :: d :: rest =>
    UInt8.ofNat (a * 4 + b / 16) :: UInt8.ofNat (b % 16 * 16 + c / 4) ::
      UInt8.ofNat (c % 4 * 64 + d) :: groups rest
  | _ => []

/-- The last group of up to four bytes: its symbols before the padding, after checking that the
padding starts no earlier than the third place and nothing follows it. -/
def lastSymbols (offset : Nat) (group : List UInt8) : Except Fault (List Nat) :=
  let symbols := group.takeWhile (· != pad)
  let tail := group.dropWhile (· != pad)
  let start := offset + symbols.length
  match values offset symbols with
  | .error fault => .error fault
  | .ok found =>
    if tail.isEmpty then .ok found
    else if symbols.length < 2 || tail.any (· != pad) then .error (.symbol pad start)
    else .ok found

/-- The bytes of the last group, whose first byte is at `offset`. -/
def lastGroup (offset : Nat) (group : List UInt8) : Except Fault (List UInt8) := do
  let found ← lastSymbols offset group
  if group.isEmpty then return []
  let last := (group.take found.length).getLastD 0
  match found with
  | [a, b] =>
    if group.length != 4 then .error .padding
    else if b % 16 != 0 then .error (.lastSymbol last (offset + 1))
    else return [UInt8.ofNat (a * 4 + b / 16)]
  | [a, b, c] =>
    if group.length != 4 then .error .padding
    else if c % 4 != 0 then .error (.lastSymbol last (offset + 2))
    else return [UInt8.ofNat (a * 4 + b / 16), UInt8.ofNat (b % 16 * 16 + c / 4)]
  | [a, b, c, d] => return groups [a, b, c, d]
  | few => .error (.length (offset + few.length))

/-- The bytes that a padded base-64 text stands for. -/
def decode (text : List UInt8) : Except Fault (List UInt8) := do
  let odd := text.length % 4
  let last := text.getLastD 0
  if odd == 1 && last != pad && (value? last).isNone then
    .error (.symbol last (text.length - 1))
  else
    let whole := if odd == 0 then text.length - 4 else text.length - odd
    let front ← values 0 (text.take whole)
    let back ← lastGroup whole (text.drop whole)
    return groups front ++ back

end Base64
end Text
end DebugBridge
