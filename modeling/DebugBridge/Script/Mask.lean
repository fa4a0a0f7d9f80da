import DebugBridge.Script.Version
import DebugBridge.Text.Utf8

/-!
Masking of comments and strings.  The masked text has a space for every byte of a comment or of
the inside of a string and is otherwise the text itself, so a byte offset means the same place in
both; line breaks are never masked.

The masker is a machine that reads one character at a time and sees the next one.
-/

namespace DebugBridge
namespace Mask

/-- What the masker is inside of. -/
inductive Mode where
  /-- Code; `fresh` while only blanks were read on the line. -/
  | code (fresh : Bool)
  /-- Code, at the character that a backtick escapes. -/
  | escaped
  /-- A comment that ends with the line. -/
  | remark
  /-- A block comment, at its second character. -/
  | opening
  /-- A block comment. -/
  | comment
  /-- A block comment, at its last character. -/
  | closing
  /-- A string that ends at a quote or with the line. -/
  | quoted (quote : Char)
  /-- A string, at a character that cannot end it. -/
  | skipping (quote : Char)
  deriving DecidableEq, Repr

/-- Whether a character lets a semicolon after it start a comment. -/
def separates (c : Char) : Bool := c == ' ' || c == '\t' || c == '\r' || c == '\n'

/-- Whether a character opens a string. -/
def isQuote (version : Version) (c : Char) : Bool :=
  c == '\x22' || (c == '\x27' && version == .v2)

/-- One character in code: whether it is kept, and what follows. -/
def codeStep (version : Version) (fresh : Bool) (before : Option Char) (c : Char)
    (next : Option Char) : Bool × Mode :=
  if c == '\n' then (true, .code true)
  else if c == ' ' || c == '\t' || c == '\r' then (true, .code fresh)
  else if c == '/' && fresh && next == some '*' then (false, .opening)
  else if c == ';' && before.all separates then (false, .remark)
  else if c == '\x60' then (true, .escaped)
  else if isQuote version c then (true, .quoted c)
  else (true, .code false)

/-- One character in a string: whether it is kept, and what follows. -/
def quotedStep (version : Version) (quote c : Char) (next : Option Char) : Bool × Mode :=
  if c == '\n' then (true, .code true)
  else if c == '\x60' && version == .v2 then (false, .skipping quote)
  else if c == quote then
    if version == .v1 && next == some quote then (false, .skipping quote) else (true, .code false)
  else (false, .quoted quote)

/-- One character in any mode: whether it is kept, and what follows. -/
def step (version : Version) (mode : Mode) (before : Option Char) (c : Char)
    (next : Option Char) : Bool × Mode :=
  match mode with
  | .code fresh => codeStep version fresh before c next
  | .escaped => (true, .code false)
  | .remark => if c == '\n' then (true, .code true) else (false, .remark)
  | .opening => (false, .comment)
  | .comment => (false, if c == '*' && next == some '/' then .closing else .comment)
  | .closing => (false, .code false)
  | .quoted quote => quotedStep version quote c next
  | .skipping quote => (false, .quoted quote)

/-- The spaces that stand for a masked character; a line break stays. -/
def blanked (c : Char) : List Char := if c == '\n' then [c] else List.replicate c.utf8Size ' '

/-- The masked form of the rest of a text, in a mode and after a character. -/
def maskFrom (version : Version) (mode : Mode) (before : Option Char) : List Char → List Char
  | [] => []
  | c :: rest =>
    let (kept, mode) := step version mode before c rest.head?
    (if kept then [c] else blanked c) ++ maskFrom version mode (some c) rest

end Mask

/-- A text with its comments and the insides of its strings turned into spaces. -/
def maskSource (version : Version) (text : List Char) : List Char :=
  Mask.maskFrom version (.code true) none text

end DebugBridge
