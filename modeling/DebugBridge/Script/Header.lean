import DebugBridge.Text.Blank
import DebugBridge.Text.Case
import DebugBridge.Text.Utf8
import DebugBridge.Text.Word

/-!
Recognition of the lines that open a construct: block comments, directives, and the headers of
classes, functions, properties and accessors.  A recogniser reads a line, or what is left of one,
and gives the parts of the header with their byte offsets in it.  Keywords may be in any case.
-/

namespace DebugBridge
namespace Header

/-- Whether a character is a lower-case letter up to case; a long s is an s. -/
def sameLetter (letter c : Char) : Bool :=
  c.toLower == letter || (letter == 's' && c == '\u017F') || (letter == 'k' && c == '\u212A')

/-- What follows a keyword, given in lower case, at the beginning of a text. -/
def afterKeyword? : List Char → List Char → Option (List Char)
  | [], text => some text
  | _ :: _, [] => none
  | letter :: word, c :: text => if sameLetter letter c then afterKeyword? word text else none

/-- The text without blanks and tabs at its beginning. -/
def skipIndent (text : List Char) : List Char := text.dropWhile Text.isIndent

/-- What follows at least one blank or tab. -/
def afterGap? (text : List Char) : Option (List Char) :=
  if text.head?.any Text.isIndent then some (skipIndent text) else none

/-- A non-empty run of characters that satisfy `p`, and what follows it. -/
def run? (p : Char → Bool) (text : List Char) : Option (List Char × List Char) :=
  match text.takeWhile p with
  | [] => none
  | found => some (found, text.dropWhile p)

/-- The byte offset in `line` at which its final part `rest` starts. -/
def offsetOf (line rest : List Char) : Nat := Text.byteLength line - Text.byteLength rest

/-- Whether a line starts a block comment. -/
def opensComment (line : List Char) : Bool := (Text.afterStart ['/', '*'] (skipIndent line)).isSome

/-- Whether a line starts with a directive. -/
def isDirective (line : List Char) : Bool :=
  match skipIndent line with
  | '#' :: c :: _ => Text.isWord c
  | _ => false

/-- Whether a word ends before a text. -/
def endsWord (text : List Char) : Bool := !text.head?.any Text.isWord

/-- An include directive: whether it asks for a file a second time, and its argument. -/
structure Inclusion where
  /-- Whether a file may be included again. -/
  again : Bool
  /-- Byte offset of the argument. -/
  offset : Nat
  /-- The argument with the blanks around it. -/
  argument : List Char
  deriving Repr

/-- Reads a line as an include directive. -/
def inclusion? (line : List Char) : Option Inclusion := do
  let word ← Text.afterStart ['#'] (skipIndent line)
  let rest ← afterKeyword? "include".toList word
  match afterKeyword? "again".toList rest with
  | some argument =>
    if endsWord argument then return ⟨true, offsetOf line argument, argument⟩ else none
  | none => if endsWord rest then return ⟨false, offsetOf line rest, rest⟩ else none

/-- Characters of a class name, dots included. -/
def isClassChar (c : Char) : Bool := Text.isWord c || c == '.' || c == '$'

/-- Characters of a function name. -/
def isFunctionChar (c : Char) : Bool := Text.isWord c || c == '#' || c == '@' || c == '$'

/-- Characters of a property name. -/
def isPropertyChar (c : Char) : Bool := Text.isWord c || c == '$'

/-- A class header. -/
structure ClassHeader where
  /-- Name of the class. -/
  name : List Char
  /-- Name of the class that it extends. -/
  base : Option (List Char)
  /-- Byte offset of an opening brace on the line. -/
  brace : Option Nat
  deriving Repr

/-- An optional opening brace, where nothing else may follow a header: none at the end of the
line, or a brace with anything behind it. -/
def bracePart? (line rest : List Char) : Option (Option Nat) :=
  match skipIndent rest with
  | [] => some none
  | '{' :: more => some (some (offsetOf line ('{' :: more)))
  | _ => none

/-- The name of a base class and an optional brace after the name of a class. -/
def extension? (line rest : List Char) : Option (List Char × Option Nat) := do
  let rest ← afterKeyword? "extends".toList (← afterGap? rest)
  let (base, rest) ← run? isClassChar (← afterGap? rest)
  return (base, ← bracePart? line rest)

/-- Reads the beginning of a line as a class header. -/
def classHeader? (line : List Char) : Option ClassHeader := do
  let rest ← afterKeyword? "class".toList (skipIndent line)
  let (name, rest) ← run? isClassChar (← afterGap? rest)
  match extension? line rest with
  | some (base, brace) => return ⟨name, some base, brace⟩
  | none => return ⟨name, none, ← bracePart? line rest⟩

/-- A function header up to its opening parenthesis. -/
structure FunctionHeader where
  /-- Whether the function is static. -/
  isStatic : Bool
  /-- Name of the function. -/
  name : List Char
  /-- Byte offset of the opening parenthesis. -/
  paren : Nat
  deriving Repr

/-- A name with an opening parenthesis right after it. -/
def namedParen? (line : List Char) (isStatic : Bool) (text : List Char) :
    Option FunctionHeader := do
  let (name, rest) ← run? isFunctionChar text
  if rest.head? == some '(' then return ⟨isStatic, name, offsetOf line rest⟩ else none

/-- Reads the beginning of a line as a function header. -/
def functionHeader? (line : List Char) : Option FunctionHeader :=
  let text := skipIndent line
  (do namedParen? line true (← afterGap? (← afterKeyword? "static".toList text))) <|>
    namedParen? line false text

/-- How the header of a property or accessor ends. -/
inductive Ending where
  /-- With the line. -/
  | line
  /-- With an opening brace at a byte offset. -/
  | brace (offset : Nat)
  /-- With an expression after a double arrow. -/
  | arrow
  deriving DecidableEq, Repr

/-- The end of the header of a property or accessor. -/
def ending? (line rest : List Char) : Option Ending :=
  match skipIndent rest with
  | [] => some .line
  | '=' :: '>' :: _ => some .arrow
  | '{' :: more =>
    if (skipIndent more).isEmpty then some (.brace (offsetOf line ('{' :: more))) else none
  | _ => none

/-- A property header. -/
structure PropertyHeader where
  /-- Whether the property is static. -/
  isStatic : Bool
  /-- Name of the property. -/
  name : List Char
  /-- Byte offsets of a parameter list with its brackets. -/
  params : Option (Nat × Nat)
  /-- How the header ends. -/
  ending : Ending
  deriving Repr

/-- What follows a bracketed parameter list. -/
def afterBrackets? (text : List Char) : Option (List Char) :=
  match text with
  | '[' :: inner =>
    match inner.dropWhile (· != ']') with
    | _ :: rest => some rest
    | [] => none
  | _ => none

/-- The parts of a property header from its name on. -/
def namedProperty? (line : List Char) (isStatic : Bool) (text : List Char) :
    Option PropertyHeader := do
  let (name, rest) ← run? isPropertyChar text
  let rest := skipIndent rest
  match afterBrackets? rest with
  | some after =>
    return ⟨isStatic, name, some (offsetOf line rest, offsetOf line after), ← ending? line after⟩
  | none => return ⟨isStatic, name, none, ← ending? line rest⟩

/-- Reads a line as a property header. -/
def propertyHeader? (line : List Char) : Option PropertyHeader :=
  let text := skipIndent line
  (do namedProperty? line true (← afterGap? (← afterKeyword? "static".toList text))) <|>
    namedProperty? line false text

/-- Reads a line as the header of an accessor: its name, in lower case, and how the header ends. -/
def accessorHeader? (line : List Char) : Option (List Char × Ending) := do
  let text := skipIndent line
  let rest ← afterKeyword? "get".toList text <|> afterKeyword? "set".toList text
  return (Text.asciiLower (text.take 3), ← ending? line rest)

/-- Words that stand before a parenthesis or alone on a line without naming anything. -/
def keywords : List String := [
  "if", "else", "while", "for", "loop", "switch", "case", "catch", "try", "finally", "until",
  "return", "throw", "not", "and", "or", "is", "in", "contains", "global", "local", "static",
  "class", "goto", "break", "continue", "get", "set"]

/-- Whether a word is a keyword, ASCII case aside. -/
def isKeyword (word : List Char) : Bool :=
  keywords.any fun keyword => keyword.toList == word.map Char.toLower

end Header
end DebugBridge
