import DebugBridge.Data.Toml.Scalar
import DebugBridge.Data.Toml.Table

/-!
TOML documents (version 1.0).  Keys and values follow each other line by line, a header saying in
which table the following ones are.  Arrays and inline tables may be nested only so deep, and keys
have only so many parts.
-/

namespace DebugBridge
namespace Toml

/-- How deep values may be nested, and how many parts a key may have. -/
def depthLimit : Nat := 79

/-- Whether a character may stand in a key without quotes. -/
def isKeyChar (c : Char) : Bool := c.isAlphanum || c == '_' || c == '-'

/-- One part of a key. -/
def keyPart? (text : List Char) : Option (String × List Char) :=
  match lineString? text with
  | some (key, rest) => some (String.ofList key, rest)
  | none =>
    let key := text.takeWhile isKeyChar
    if key.isEmpty then none else some (String.ofList key, text.dropWhile isKeyChar)

/-- A key with its parts, blanks around each of them being allowed. -/
def key? : Nat → List Char → Option (List String × List Char)
  | 0, _ => none
  | fuel + 1, text => do
    let (part, rest) ← keyPart? (skipSpace text)
    match skipSpace rest with
    | '.' :: rest =>
      let (parts, rest) ← key? fuel rest
      return (part :: parts, rest)
    | rest => return ([part], rest)

/-- A key, cut into the path to its table and its last part. -/
def path? (text : List Char) : Option (List String × String × List Char) := do
  let (parts, rest) ← key? depthLimit text
  return (parts.dropLast, ← parts.getLast?, rest)

mutual

/-- A value that is nested in at most `depth` more. -/
def value? (depth : Nat) : Nat → List Char → Option (Value × List Char)
  | 0, _ => none
  | fuel + 1, text =>
    match text with
    | '[' :: rest =>
      match depth with
      | 0 => none
      | depth + 1 => do
        let (items, rest) ← items? depth fuel rest
        return (.list items, rest)
    | '\x7b' :: rest =>
      match depth with
      | 0 => none
      | depth + 1 => do
        match skipSpace rest with
        | '\x7d' :: rest => return (.record [], rest)
        | rest =>
          let (entries, rest) ← members? depth fuel [] rest
          return (.record (entriesToValues entries), rest)
    | '\x22' :: _ | '\x27' :: _ =>
      (string? text).map fun (content, rest) => (.text (String.ofList content), rest)
    | text => plain? text

/-- The items of an array up to its closing bracket. -/
def items? (depth : Nat) : Nat → List Char → Option (List Value × List Char)
  | 0, _ => none
  | fuel + 1, text => do
    match ← skipLines (text.length + 1) text with
    | ']' :: rest => return ([], rest)
    | text =>
      let (item, rest) ← value? depth fuel text
      match ← skipLines (rest.length + 1) rest with
      | ',' :: rest =>
        let (items, rest) ← items? depth fuel rest
        return (item :: items, rest)
      | ']' :: rest => return ([item], rest)
      | _ => none

/-- The members of an inline table up to its closing brace, added to those before. -/
def members? (depth : Nat) : Nat → Entries → List Char → Option (Entries × List Char)
  | 0, _, _ => none
  | fuel + 1, entries, text => do
    let (path, key, rest) ← path? text
    let rest ← mark? '=' rest
    let (value, rest) ← value? depth fuel (skipSpace rest)
    let entries ← assign path key value .headed entries
    match skipSpace rest with
    | ',' :: rest => members? depth fuel entries rest
    | '\x7d' :: rest => return (entries, rest)
    | _ => none

end

/-- What a line of a document says. -/
inductive Line where
  /-- Nothing. -/
  | blank
  /-- The following keys are in a table. -/
  | header (path : List String) (key : String)
  /-- The following keys are in a new element of a list of tables. -/
  | element (path : List String) (key : String)
  /-- A key stands for a value. -/
  | assignment (path : List String) (key : String) (value : Value)

/-- The first line of a text, which may go on over several, and the text after it. -/
def line? (text : List Char) : Option (Line × List Char) :=
  match skipSpace text with
  | [] => some (.blank, [])
  | '[' :: '[' :: rest => do
    let (path, key, rest) ← path? rest
    return (.element path key, ← (mark? ']' rest).bind fun rest => (mark? ']' rest).bind lineEnd?)
  | '[' :: rest => do
    let (path, key, rest) ← path? rest
    return (.header path key, ← (mark? ']' rest).bind lineEnd?)
  | '#' :: rest => (lineEnd? ('#' :: rest)).map (Line.blank, ·)
  | text =>
    match newline? text with
    | some rest => some (.blank, rest)
    | none => do
      let (path, key, rest) ← path? text
      let rest ← mark? '=' rest
      let (value, rest) ← value? depthLimit (2 * rest.length + 2) (skipSpace rest)
      return (.assignment path key value, ← lineEnd? rest)

/-- A document as far as it has been read. -/
structure Draft where
  /-- The table that is the document. -/
  root : Entries
  /-- The path to the table that keys belong to. -/
  current : List String

/-- The document with one more line. -/
def Draft.add? (draft : Draft) : Line → Option Draft
  | .blank => some draft
  | .header path key => do
    let root ← modify false (addTable key) .headed draft.root path
    return { root, current := path ++ [key] }
  | .element path key => do
    return { root := ← modify false (addElement key) .headed draft.root path
             current := path ++ [key] }
  | .assignment path key value => do
    return { draft with
      root := ← modify false (assign path key value) .headed draft.root draft.current }

/-- Reads the lines of a text into a document. -/
def linesInto? : Nat → Draft → List Char → Option Draft
  | 0, _, _ => none
  | fuel + 1, draft, text =>
    match text with
    | [] => some draft
    | text => do
      let (line, rest) ← line? text
      linesInto? fuel (← draft.add? line) rest

/-- The record that a document describes, if it is a proper one.  A mark for the byte order in
front of it does not count. -/
def parse? (text : List Char) : Option Value := do
  let text := match text with
    | '\ufeff' :: rest => rest
    | text => text
  let draft ← linesInto? (text.length + 1) ⟨[], []⟩ text
  return .record (entriesToValues draft.root)

end Toml
end DebugBridge
