import DebugBridge.Shell.Regex

/-!
Editing of a stream of lines by a script.  Each command may be restricted to some lines; it prints
the line, drops it, ends the editing, or replaces what matches an expression.
-/

namespace DebugBridge
namespace Shell
namespace StreamEdit

/-- Which lines a command is for. -/
inductive Address where
  /-- All. -/
  | any
  /-- The line with a number. -/
  | line (number : Nat)
  /-- The last one. -/
  | last
  /-- Those that match an expression. -/
  | matching (expression : List Regex)

/-- What is done with a line. -/
inductive Action where
  /-- It is printed. -/
  | print
  /-- It is dropped. -/
  | delete
  /-- Editing ends after it. -/
  | quit
  /-- A match is replaced, or every match, and the line possibly printed. -/
  | substitute (expression : List Regex) (replacement : List Char) (every prints : Bool)

/-- A command. -/
structure Edit where
  /-- Its lines. -/
  address : Address
  /-- Whether it is for all others. -/
  negated : Bool
  /-- What it does. -/
  action : Action

/-- A stretch up to a delimiter, backslashes keeping their meaning, and the rest. -/
def untilDelimiter (delimiter : Char) : List Char → List Char × List Char
  | [] => ([], [])
  | '\\' :: c :: rest =>
    let (inside, after) := untilDelimiter delimiter rest
    (if c == delimiter then c :: inside else '\\' :: c :: inside, after)
  | c :: rest =>
    if c == delimiter then ([], rest)
    else
      let (inside, after) := untilDelimiter delimiter rest
      (c :: inside, after)

/-- An address at the front, and the rest. -/
def readAddress (text : List Char) : Address × List Char :=
  match text with
  | '$' :: rest => (.last, rest)
  | '/' :: rest =>
    let (inside, rest) := untilDelimiter '/' rest
    (.matching (Regex.ofText inside), rest)
  | text =>
    match Text.decimal? (text.takeWhile Text.isDigit) with
    | some number => (.line number, text.dropWhile Text.isDigit)
    | none => (.any, text)

/-- An action at the front, and the rest. -/
def readAction? : List Char → Option (Action × List Char)
  | 'p' :: rest => some (.print, rest)
  | 'd' :: rest => some (.delete, rest)
  | 'q' :: rest => some (.quit, rest)
  | 's' :: delimiter :: rest =>
    let (expression, rest) := untilDelimiter delimiter rest
    let (replacement, rest) := untilDelimiter delimiter rest
    let flags := rest.takeWhile fun c => c == 'g' || c == 'p'
    some (.substitute (Regex.ofText expression) replacement (flags.contains 'g')
      (flags.contains 'p'), rest.drop flags.length)
  | _ => none

/-- The commands of a script, if all can be read. -/
def read? : (fuel : Nat) → List Char → Option (List Edit)
  | 0, _ => none
  | fuel + 1, text =>
    match text.dropWhile fun c => c == ' ' || c == ';' || c == '\n' with
    | [] => some []
    | text => do
      let (address, rest) := readAddress text
      let rest := rest.dropWhile (· == ' ')
      let negated := rest.head? == some '!'
      let (action, rest) ← readAction? (if negated then rest.drop 1 else rest)
      return { address, negated, action } :: (← read? fuel rest)

/-- The commands of a script, if all can be read. -/
def ofText? (text : String) : Option (List Edit) := read? (text.length + 1) text.toList

/-- What stands for a match. -/
def fill (matched : List Char) (groups : Regex.Groups) : List Char → List Char
  | '\\' :: c :: rest =>
    (if c == 'n' then ['\n']
      else if Text.isDigit c then
        if c == '0' then matched else Regex.found groups (c.toNat - '0'.toNat)
      else [c]) ++ fill matched groups rest
  | '&' :: rest => matched ++ fill matched groups rest
  | c :: rest => c :: fill matched groups rest
  | [] => []

/-- A line with matches replaced, if there are any. -/
def replace? (expression : List Regex) (replacement : List Char) (every : Bool) (total : Nat) :
    (fuel : Nat) → List Char → Option (List Char)
  | 0, _ => none
  | fuel + 1, text => do
    let (before, matched, rest, groups) ← Regex.search total expression [] text
    let shown := before ++ fill matched groups replacement
    if !every then return shown ++ rest
    else if matched.isEmpty then
      match rest with
      | [] => return shown
      | c :: rest =>
        return shown ++ c :: (replace? expression replacement every total fuel rest).getD rest
    else return shown ++ (replace? expression replacement every total fuel rest).getD rest

/-- Whether a command is for a line. -/
def Edit.isFor (edit : Edit) (number : Nat) (isLast : Bool) (line : List Char) : Bool :=
  (match edit.address with
    | .any => true
    | .line wanted => number == wanted
    | .last => isLast
    | .matching expression => (Regex.firstMatch? expression line).isSome) != edit.negated

/-- What becomes of a line. -/
structure Edited where
  /-- Lines that were printed. -/
  printed : List (List Char)
  /-- The line, unless it was dropped. -/
  line : Option (List Char)
  /-- Whether editing ends. -/
  ends : Bool

/-- A line after some commands. -/
def editLine (number : Nat) (isLast : Bool) : List Edit → List Char → Edited
  | [], line => { printed := [], line := some line, ends := false }
  | edit :: edits, line =>
    if !edit.isFor number isLast line then editLine number isLast edits line
    else
      let andPrint := fun (line : List Char) =>
        let edited := editLine number isLast edits line
        { edited with printed := line :: edited.printed }
      match edit.action with
      | .print => andPrint line
      | .delete => { printed := [], line := none, ends := false }
      | .quit => { printed := [], line := some line, ends := true }
      | .substitute expression replacement every prints =>
        match replace? expression replacement every line.length (line.length + 1) line with
        | some line => if prints then andPrint line else editLine number isLast edits line
        | none => editLine number isLast edits line

/-- The lines that editing gives; `quiet` says that only what is printed counts. -/
def run (edits : List Edit) (quiet : Bool) (number : Nat) : List (List Char) → List (List Char)
  | [] => []
  | line :: rest =>
    let edited := editLine number rest.isEmpty edits line
    edited.printed ++ (if quiet then [] else edited.line.toList) ++
      if edited.ends then [] else run edits quiet (number + 1) rest

end StreamEdit
end Shell
end DebugBridge
