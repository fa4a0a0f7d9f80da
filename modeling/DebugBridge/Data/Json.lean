import DebugBridge.Data.Value

/-!
Structured data as JSON text, without any blanks.  A text is quoted: quotes, backslashes and control
characters are escaped, and all other characters stand for themselves.
-/

namespace DebugBridge
namespace Json

/-- A hexadecimal digit. -/
def hexDigit (value : Nat) : Char := Nat.digitChar value

/-- A character as it is written in a text. -/
def escapeChar (c : Char) : List Char :=
  if c == '\x22' then ['\\', '\x22']
  else if c == '\\' then ['\\', '\\']
  else if c == '\n' then ['\\', 'n']
  else if c == '\r' then ['\\', 'r']
  else if c == '\t' then ['\\', 't']
  else if c == '\x08' then ['\\', 'b']
  else if c == '\x0c' then ['\\', 'f']
  else if c.toNat < 32 then ['\\', 'u', '0', '0', hexDigit (c.toNat / 16), hexDigit (c.toNat % 16)]
  else [c]

/-- A text as it is written. -/
def quoted (text : String) : String :=
  String.ofList ('\x22' :: text.toList.flatMap escapeChar ++ ['\x22'])

mutual

/-- Data as it is written. -/
def render : Value → String
  | .null | .fraction => "null"
  | .boolean value => if value then "true" else "false"
  | .integer value => toString value
  | .text value => quoted value
  | .moment written => quoted written
  | .list items => "[" ++ ",".intercalate (renderItems items) ++ "]"
  | .record members => "\x7b" ++ ",".intercalate (renderMembers members) ++ "\x7d"

/-- Elements of a list as they are written. -/
def renderItems : List Value → List String
  | [] => []
  | item :: rest => render item :: renderItems rest

/-- Members of a record as they are written. -/
def renderMembers : List (String × Value) → List String
  | [] => []
  | (name, value) :: rest => (quoted name ++ ":" ++ render value) :: renderMembers rest

end

end Json
end DebugBridge
