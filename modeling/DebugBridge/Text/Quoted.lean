import DebugBridge.Text.Ranges

/-!
Quoted text in messages.  A quoted text stands between double quotes; quotes, backslashes and the
common controls are escaped by name, every other character that does not show is escaped by its
code point in hexadecimal.
-/

namespace DebugBridge
namespace Text

/-- Whether a character does not show, or would join the character before it. -/
def isHidden (c : Char) : Bool :=
  let code := c.toNat
  code < 32 || code == 127 || (128 ≤ code && inRanges escapedRanges code)

/-- A number in lower-case hexadecimal. -/
def hex (value : Nat) : List Char := Nat.toDigits 16 value

/-- One character of a quoted text. -/
def quotedChar (c : Char) : List Char :=
  match c with
  | '\x22' => ['\\', '\x22']
  | '\\' => ['\\', '\\']
  | '\n' => ['\\', 'n']
  | '\r' => ['\\', 'r']
  | '\t' => ['\\', 't']
  | '\x00' => ['\\', '0']
  | c => if isHidden c then ['\\', 'u', '\x7b'] ++ hex c.toNat ++ ['\x7d'] else [c]

/-- A string between quotes, with what does not show escaped. -/
def quoted (text : String) : String :=
  "\"" ++ String.ofList (text.toList.flatMap quotedChar) ++ "\""

end Text
end DebugBridge
