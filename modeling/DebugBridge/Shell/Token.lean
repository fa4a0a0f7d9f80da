import DebugBridge.Shell.Syntax
import DebugBridge.Text.Number

/-!
Tokens of shell scripts: words, operators and line breaks.  Quotes and backslashes take the special
meaning from characters; what stands for a value is recognised inside words, also between double
quotes.
-/

namespace DebugBridge
namespace Shell

/-- A token. -/
inductive Token where
  /-- A word. -/
  | word (parts : Word)
  /-- An operator; a line break is one too. -/
  | operator (symbol : String)
  /-- A number right before a redirection. -/
  | descriptor (number : Nat)

/-- Where parts of a word stand. -/
inductive Surrounding where
  /-- In the open. -/
  | bare
  /-- Between double quotes. -/
  | quotes
  /-- Between braces, possibly between double quotes. -/
  | braces (isQuoted : Bool)
  deriving DecidableEq, Repr

/-- Whether values are left in one piece. -/
def Surrounding.isQuoted : Surrounding → Bool
  | .bare => false
  | .quotes => true
  | .braces isQuoted => isQuoted

/-- Whether a character ends a word in the open. -/
def isMeta (c : Char) : Bool := " \t\n;&|<>()".toList.contains c

/-- Whether a character ends a stretch of parts. -/
def Surrounding.ends (surrounding : Surrounding) (c : Char) : Bool :=
  match surrounding with
  | .bare => isMeta c
  | .quotes => c == '\x22'
  | .braces _ => c == '\x7d'

/-- Whether a character may stand in a name. -/
def isNameChar (c : Char) : Bool := c == '_' || (c.isAlphanum && c.toNat < 128)

/-- Whether a text is a name. -/
def isName (text : List Char) : Bool :=
  match text with
  | c :: _ => text.all isNameChar && !c.isDigit
  | [] => false

/-- Whether a character is the name of a special parameter. -/
def isSpecial (c : Char) : Bool := "@*#?-$!".toList.contains c

/-- What stands before and after the next quote. -/
def untilQuote (mark : Char) : List Char → List Char × List Char
  | [] => ([], [])
  | c :: rest =>
    if c == mark then ([], rest)
    else
      let (inside, after) := untilQuote mark rest
      (c :: inside, after)

/-- What stands before the parenthesis that closes one already open, and after it. -/
def untilParenthesis : (fuel depth : Nat) → List Char → List Char × List Char
  | 0, _, text => ([], text)
  | _, _, [] => ([], [])
  | fuel + 1, depth, c :: rest =>
    let keep := fun (front : List Char) (next : List Char × List Char) => (front ++ next.1, next.2)
    if c == '\x27' || c == '\x22' || c == '\x60' then
      let (inside, after) := untilQuote c rest
      keep (c :: inside ++ [c]) (untilParenthesis fuel depth after)
    else if c == '\\' then keep (c :: rest.take 1) (untilParenthesis fuel depth (rest.drop 1))
    else if c == '(' then keep [c] (untilParenthesis fuel (depth + 1) rest)
    else if c == ')' then
      match depth with
      | 0 => ([], rest)
      | depth + 1 => keep [c] (untilParenthesis fuel depth rest)
    else keep [c] (untilParenthesis fuel depth rest)

/-- What stands before the back quote that closes one already open, and after it. -/
def untilBackQuote : List Char → List Char × List Char
  | [] => ([], [])
  | '\\' :: c :: rest =>
    let (inside, after) := untilBackQuote rest
    (if c == '\x60' || c == '\\' || c == '$' then c :: inside else '\\' :: c :: inside, after)
  | c :: rest =>
    if c == '\x60' then ([], rest)
    else
      let (inside, after) := untilBackQuote rest
      (c :: inside, after)

/-- The change that stands after a name between braces, and the rest. -/
def readChange : List Char → Change × List Char
  | ':' :: '-' :: rest => (.default true, rest)
  | ':' :: '=' :: rest => (.assign true, rest)
  | ':' :: '+' :: rest => (.alternative true, rest)
  | ':' :: '?' :: rest => (.require true, rest)
  | '-' :: rest => (.default false, rest)
  | '=' :: rest => (.assign false, rest)
  | '+' :: rest => (.alternative false, rest)
  | '?' :: rest => (.require false, rest)
  | '#' :: '#' :: rest => (.dropFront true, rest)
  | '#' :: rest => (.dropFront false, rest)
  | '%' :: '%' :: rest => (.dropBack true, rest)
  | '%' :: rest => (.dropBack false, rest)
  | rest => (.none, rest)

/-- The name of a parameter between braces, and the rest. -/
def readParameterName (text : List Char) : List Char × List Char :=
  match text with
  | c :: rest =>
    if isSpecial c then ([c], rest) else (text.takeWhile isNameChar, text.dropWhile isNameChar)
  | [] => ([], [])

/-- Text as a part. -/
def literal (surrounding : Surrounding) (c : Char) : Part :=
  if surrounding.isQuoted then .quoted (String.singleton c) else .plain (String.singleton c)

/-- Whether a backslash between double quotes takes the meaning from a character. -/
def isEscapable (c : Char) : Bool := c == '$' || c == '\x60' || c == '\x22' || c == '\\'

mutual

/-- The parts of a word up to where they end, and the rest. -/
def readParts : (fuel : Nat) → Surrounding → List Char → Word × List Char
  | 0, _, text => ([], text)
  | _, _, [] => ([], [])
  | fuel + 1, surrounding, c :: rest =>
    let and := fun (parts : List Part) (text : List Char) =>
      let (others, after) := readParts fuel surrounding text
      (parts ++ others, after)
    if surrounding.ends c then ([], c :: rest)
    else if c == '\\' then
      match rest with
      | [] => and [literal surrounding c] []
      | next :: rest =>
        if next == '\n' then and [] rest
        else if surrounding.isQuoted && !isEscapable next then
          and [.quoted (String.ofList [c, next])] rest
        else and [.quoted (String.singleton next)] rest
    else if c == '\x27' && !surrounding.isQuoted then
      let (inside, rest) := untilQuote c rest
      and [.quoted (String.ofList inside)] rest
    else if c == '\x22' then
      let (inside, after) := readParts fuel .quotes rest
      and (.quoted "" :: inside) (after.drop 1)
    else if c == '\x60' then
      let (inside, rest) := untilBackQuote rest
      and [.output (String.ofList inside) surrounding.isQuoted] rest
    else if c == '$' then
      let (part, rest) := readValue fuel surrounding rest
      and [part] rest
    else and [literal surrounding c] rest

/-- What stands for a value after a dollar sign, and the rest. -/
def readValue : (fuel : Nat) → Surrounding → List Char → Part × List Char
  | 0, surrounding, text => (literal surrounding '$', text)
  | fuel + 1, surrounding, text =>
    let isQuoted := surrounding.isQuoted
    match text with
    | '\x7b' :: '#' :: '\x7d' :: rest => (.parameter "#" .none [] isQuoted, rest)
    | '\x7b' :: '#' :: rest =>
      let (name, rest) := readParameterName rest
      (.parameter (String.ofList name) .length [] isQuoted, rest.drop 1)
    | '\x7b' :: rest =>
      let (name, rest) := readParameterName rest
      let (change, rest) := readChange rest
      let (argument, rest) := readParts fuel (.braces (isQuoted && !change.takesPattern)) rest
      (.parameter (String.ofList name) change argument isQuoted, rest.drop 1)
    | '(' :: '(' :: rest =>
      let (inside, rest) := untilParenthesis (fuel + 1) 0 rest
      (.arithmetic (readParts fuel .quotes inside).1 isQuoted, rest.drop 1)
    | '(' :: rest =>
      let (inside, rest) := untilParenthesis (fuel + 1) 0 rest
      (.output (String.ofList inside) isQuoted, rest)
    | c :: rest =>
      if isSpecial c || c.isDigit then (.parameter (String.singleton c) .none [] isQuoted, rest)
      else
        let name := text.takeWhile isNameChar
        if name.isEmpty then (literal surrounding '$', text)
        else (.parameter (String.ofList name) .none [] isQuoted, text.dropWhile isNameChar)
    | [] => (literal surrounding '$', [])

end

/-- Neighbouring texts of one kind become one. -/
def joinTexts : Word → Word
  | [] => []
  | part :: rest =>
    match part, joinTexts rest with
    | .plain first, .plain second :: others => .plain (first ++ second) :: others
    | .quoted first, .quoted second :: others => .quoted (first ++ second) :: others
    | part, others => part :: others

/-- The operators, longer ones first. -/
def operators : List (List Char) :=
  ["&&", "||", ";;", ">>", ">&", "<&", ">|", ";", "&", "|", "(", ")", "<", ">", "\n"].map
    String.toList

/-- The operator at the front of a text, and the rest. -/
def readOperator? (text : List Char) : Option (String × List Char) := do
  let symbol ← operators.find? fun symbol => symbol.isPrefixOf text
  return (String.ofList symbol, text.drop symbol.length)

/-- The tokens of a script. -/
def tokens : (fuel : Nat) → List Char → List Token
  | 0, _ => []
  | _, [] => []
  | fuel + 1, c :: rest =>
    if c == ' ' || c == '\t' then tokens fuel rest
    else if c == '\\' && rest.head? == some '\n' then tokens fuel (rest.drop 1)
    else if c == '#' then tokens fuel (rest.dropWhile (· != '\n'))
    else
      match readOperator? (c :: rest) with
      | some (symbol, rest) => .operator symbol :: tokens fuel rest
      | none =>
        let digits := (c :: rest).takeWhile Text.isDigit
        let after := (c :: rest).dropWhile Text.isDigit
        if !digits.isEmpty && (after.head? == some '<' || after.head? == some '>') then
          .descriptor ((Text.decimal? digits).getD 0) :: tokens fuel after
        else
          let (parts, rest) := readParts (rest.length + 2) .bare (c :: rest)
          .word (joinTexts parts) :: tokens fuel rest

end Shell
end DebugBridge
