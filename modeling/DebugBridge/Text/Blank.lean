/-!
Blank characters, that is the twenty-five characters of the Unicode property White_Space, and the
trimming and splitting of text at them.  Dropping blanks from both ends leaves a text whose first
and last characters are not blank (`trim`), and `words` are the maximal runs without blanks.
-/

namespace DebugBridge
namespace Text

/-- Whether a character has the Unicode property White_Space. -/
def isBlank (c : Char) : Bool :=
  let code := c.toNat
  (9 ≤ code && code ≤ 13) || code == 0x20 || code == 0x85 || code == 0xA0 || code == 0x1680 ||
    (0x2000 ≤ code && code ≤ 0x200A) || code == 0x2028 || code == 0x2029 || code == 0x202F ||
    code == 0x205F || code == 0x3000

/-- A blank or a tab: the characters that may indent a line. -/
def isIndent (c : Char) : Bool := c == ' ' || c == '\t'

/-- The text without leading blanks. -/
def trimStart (text : List Char) : List Char := text.dropWhile isBlank

/-- The text without trailing characters that satisfy `p`. -/
def dropEndWhile (p : Char → Bool) (text : List Char) : List Char :=
  (text.reverse.dropWhile p).reverse

/-- The text without trailing blanks. -/
def trimEnd (text : List Char) : List Char := dropEndWhile isBlank text

/-- The text without blanks at either end. -/
def trim (text : List Char) : List Char := trimEnd (trimStart text)

/-- Whether a text holds nothing but blanks. -/
def allBlank (text : List Char) : Bool := text.all isBlank

/-- Words collected from a text, `current` being the part of a word read so far, reversed. -/
def wordsFrom (current : List Char) : List Char → List (List Char)
  | [] => if current.isEmpty then [] else [current.reverse]
  | c :: rest =>
    if isBlank c then
      if current.isEmpty then wordsFrom [] rest else current.reverse :: wordsFrom [] rest
    else wordsFrom (c :: current) rest

/-- The maximal runs of characters that are not blank, in order. -/
def words (text : List Char) : List (List Char) := wordsFrom [] text

/-- A string without blanks at either end. -/
def trimmed (text : String) : String := String.ofList (trim text.toList)

/-- Whether a string holds nothing but blanks. -/
def isBlankText (text : String) : Bool := allBlank text.toList

/-- The pieces of a text between the occurrences of a character; there is always one. -/
def splitAtChar (separator : Char) : List Char → List (List Char)
  | [] => [[]]
  | c :: rest =>
    if c == separator then [] :: splitAtChar separator rest
    else
      match splitAtChar separator rest with
      | [] => [[c]]
      | piece :: pieces => (c :: piece) :: pieces

/-- The text before and after the first occurrence of a character, if there is one. -/
def splitOnce (separator : Char) (text : List Char) : Option (List Char × List Char) :=
  match text.dropWhile (· != separator) with
  | [] => none
  | _ :: after => some (text.takeWhile (· != separator), after)

/-- The text before and after the last occurrence of a character, if there is one. -/
def splitLast (separator : Char) (text : List Char) : Option (List Char × List Char) :=
  (splitOnce separator text.reverse).map fun (after, before) => (before.reverse, after.reverse)

/-- What follows a given beginning of a text, if the text begins so. -/
def afterStart : List Char → List Char → Option (List Char)
  | [], text => some text
  | _ :: _, [] => none
  | a :: start, c :: text => if a == c then afterStart start text else none

/-- What precedes a given end of a text, if the text ends so. -/
def beforeEnd (finish text : List Char) : Option (List Char) :=
  (afterStart finish.reverse text.reverse).map List.reverse

/-- Whether `part` occurs in a text. -/
def occursIn (part : List Char) : List Char → Bool
  | [] => part.isEmpty
  | c :: rest => (afterStart part (c :: rest)).isSome || occursIn part rest

end Text
end DebugBridge
