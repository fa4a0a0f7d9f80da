import DebugBridge.Text.Blank
import DebugBridge.Text.Number

/-!
Addresses on the network.  An IPv6 address is written with the first of its longest runs of at
least two zero groups left out, and one that stands for an IPv4 address with that one at its end.
-/

namespace DebugBridge

/-- The address of a host. -/
inductive HostAddress where
  /-- Four bytes. -/
  | v4 (a b c d : Nat)
  /-- Eight groups of sixteen bits. -/
  | v6 (groups : List Nat)
  deriving DecidableEq, Repr

/-- The address of a host and a port. -/
structure SocketAddress where
  /-- The host. -/
  host : HostAddress
  /-- The port. -/
  port : Nat
  /-- The number of the zone that an IPv6 address belongs to, zero if none is given. -/
  zone : Nat := 0
  deriving DecidableEq, Repr

namespace HostAddress

/-- Four bytes in writing. -/
def dotted (a b c d : Nat) : String :=
  ".".intercalate ([a, b, c, d].map toString)

/-- Groups in writing, with colons between them. -/
def groupText (groups : List Nat) : String :=
  ":".intercalate (groups.map fun group => String.ofList (Nat.toDigits 16 group))

/-- How many zeros a list starts with. -/
def leadingZeros (groups : List Nat) : Nat := (groups.takeWhile (· == 0)).length

/-- Position and length of the first of the longest runs of zeros. -/
def longestZeros (groups : List Nat) : Nat × Nat :=
  (List.range groups.length).foldl (fun best start =>
    let length := leadingZeros (groups.drop start)
    if best.2 < length then (start, length) else best) (0, 0)

/-- The IPv4 address that an address stands for. -/
def mapped? : HostAddress → Option HostAddress
  | .v4 a b c d => some (.v4 a b c d)
  | .v6 [0, 0, 0, 0, 0, 0xFFFF, high, low] =>
    some (.v4 (high / 256) (high % 256) (low / 256) (low % 256))
  | .v6 _ => none

/-- The address in writing. -/
def text : HostAddress → String
  | .v4 a b c d => dotted a b c d
  | .v6 groups =>
    match mapped? (.v6 groups) with
    | some (.v4 a b c d) => "::ffff:" ++ dotted a b c d
    | _ =>
      let (start, length) := longestZeros groups
      if length < 2 then groupText groups
      else groupText (groups.take start) ++ "::" ++ groupText (groups.drop (start + length))

/-- The four bytes read as a number whose last byte counts most, as it is sent in a message. -/
def littleEndian? : HostAddress → Option Nat
  | .v4 a b c d => some (a + 256 * (b + 256 * (c + 256 * d)))
  | .v6 _ => none

/-- A byte in decimal, without leading zeros. -/
def byte? (digits : List Char) : Option Nat := do
  let value ← Text.decimal? digits
  let isPlain := digits.length = 1 || digits.head? != some '0'
  if value ≤ Text.maxByte && isPlain then some value else none

/-- Four bytes with dots between them. -/
def parseV4? (written : List Char) : Option HostAddress := do
  match Text.splitAtChar '.' written with
  | [a, b, c, d] => return .v4 (← byte? a) (← byte? b) (← byte? c) (← byte? d)
  | _ => none

/-- The value of a hexadecimal digit. -/
def hexDigit? (c : Char) : Option Nat :=
  if Text.isDigit c then some (c.toNat - '0'.toNat)
  else if 'a' ≤ c && c ≤ 'f' then some (c.toNat - 'a'.toNat + 10)
  else if 'A' ≤ c && c ≤ 'F' then some (c.toNat - 'A'.toNat + 10)
  else none

/-- A group of one to four hexadecimal digits. -/
def group? (digits : List Char) : Option Nat := do
  if digits.isEmpty || 4 < digits.length then none
  else return (← digits.mapM hexDigit?).foldl (fun value digit => value * 16 + digit) 0

/-- Groups with colons between them. -/
def groups? (written : List Char) : Option (List Nat) :=
  if written.isEmpty then some [] else (Text.splitAtChar ':' written).mapM group?

/-- Groups at the end of an address, where an IPv4 address may stand for the last two. -/
def lastGroups? (written : List Char) : Option (List Nat) :=
  let parts := Text.splitAtChar ':' written
  match parts.getLast?.bind parseV4? with
  | some (.v4 a b c d) => do
    return (← parts.dropLast.mapM group?) ++ [a * 256 + b, c * 256 + d]
  | _ => groups? written

/-- What stands before and after the first pair of colons. -/
def splitGap : List Char → Option (List Char × List Char)
  | ':' :: ':' :: rest => some ([], rest)
  | c :: rest => (splitGap rest).map fun (before, after) => (c :: before, after)
  | [] => none

/-- An IPv6 address. -/
def parseV6? (written : List Char) : Option HostAddress := do
  match splitGap written with
  | some (before, after) =>
    let first ← groups? before
    let last ← lastGroups? after
    if first.length + last.length ≤ 7 then
      return .v6 (first ++ List.replicate (8 - first.length - last.length) 0 ++ last)
    else none
  | none =>
    let groups ← lastGroups? written
    if groups.length = 8 then return .v6 groups else none

/-- The address of the host itself. -/
def loopback : HostAddress := .v4 127 0 0 1

/-- The address that a name stands for, which may be an address in writing. -/
def named? (name : String) : Option HostAddress :=
  parseV4? name.toList <|> parseV6? name.toList <|>
    if name == "localhost" then some loopback else none

/-- Whether an address is one of the host itself, or stands for all of them. -/
def isOwn : HostAddress → Bool
  | .v4 0 0 0 0 => true
  | .v4 a _ _ _ => a == 127
  | .v6 groups => groups == List.replicate 8 0 || groups == List.replicate 7 0 ++ [1]

end HostAddress

namespace SocketAddress

/-- The first of the ports that are given out where any will do. -/
def firstFreePort : Nat := 49152

/-- The address in writing. -/
def text (address : SocketAddress) : String :=
  match address.host with
  | .v4 _ _ _ _ => address.host.text ++ ":" ++ toString address.port
  | .v6 _ =>
    let zone := if address.zone == 0 then "" else "%" ++ toString address.zone
    "[" ++ address.host.text ++ zone ++ "]:" ++ toString address.port

/-- What stands before the zone of an address, and the zone. -/
def splitZone? (written : List Char) : Option (List Char × Nat) :=
  match Text.splitLast '%' written with
  | none => some (written, 0)
  | some (before, digits) => do
    let zone ← Text.decimal? digits
    if Text.maxWord < zone then none else some (before, zone)

/-- The address that a text stands for. -/
def parse? (written : List Char) : Option SocketAddress := do
  let (host, port) ← Text.splitLast ':' written
  let port ← Text.decimal? port
  if Text.maxPort < port then none
  else
    match host with
    | '[' :: rest => do
      let (host, zone) ← splitZone? (← Text.beforeEnd [']'] rest)
      return { host := ← HostAddress.parseV6? host, port, zone }
    | host => return { host := ← HostAddress.parseV4? host, port }

end SocketAddress
end DebugBridge
