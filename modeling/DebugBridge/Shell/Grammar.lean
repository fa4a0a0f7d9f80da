import DebugBridge.Shell.Token

/-!
Reading scripts.  A script is a list of commands; a reserved word has its meaning only where a
command may start.
-/

namespace DebugBridge
namespace Shell

/-- The reserved word at the front, if there is one. -/
def reserved? : List Token → Option String
  | .word [.plain text] :: _ => some text
  | _ => none

/-- The operator at the front, if there is one. -/
def operator? : List Token → Option String
  | .operator symbol :: _ => some symbol
  | _ => none

/-- The tokens after a reserved word that has to be there. -/
def expectWord (text : String) (tokens : List Token) : Option (List Token) :=
  if reserved? tokens == some text then some (tokens.drop 1) else none

/-- The tokens after an operator that has to be there. -/
def expectOperator (symbol : String) (tokens : List Token) : Option (List Token) :=
  if operator? tokens == some symbol then some (tokens.drop 1) else none

/-- The tokens after line breaks. -/
def skipBreaks : List Token → List Token
  | .operator "\n" :: rest => skipBreaks rest
  | tokens => tokens

/-- Words that end a list of commands. -/
def closers : List String := ["then", "do", "done", "fi", "elif", "else", "esac", "\x7d"]

/-- Whether a list of commands ends here. -/
def atEnd (tokens : List Token) : Bool :=
  match tokens with
  | [] => true
  | .operator symbol :: _ => symbol == ")" || symbol == ";;"
  | _ => (reserved? tokens).any closers.contains

/-- The assignment that a word stands for, if it does. -/
def assignment? : Word → Option (String × Word)
  | .plain text :: rest =>
    let name := text.toList.takeWhile (· != '=')
    match text.toList.drop name.length with
    | _ :: value =>
      if isName name then
        some (String.ofList name,
          if value.isEmpty then rest else .plain (String.ofList value) :: rest)
      else none
    | [] => none
  | _ => none

/-- What an operator of redirection does. -/
def redirectMode? : String → Option RedirectMode
  | "<" => some .read
  | ">" | ">|" => some .write
  | ">>" => some .append
  | ">&" | "<&" => some .duplicate
  | _ => none

/-- The descriptor that an operator means where none is given. -/
def usualDescriptor (symbol : String) : Nat := if symbol.startsWith "<" then 0 else 1

/-- A redirection at the front, if there is one. -/
def redirect? : List Token → Option (Redirect × List Token)
  | .descriptor number :: .operator symbol :: .word target :: rest => do
    return ({ descriptor := number, mode := ← redirectMode? symbol, target }, rest)
  | .operator symbol :: .word target :: rest => do
    return ({ descriptor := usualDescriptor symbol, mode := ← redirectMode? symbol, target }, rest)
  | _ => none

/-- Redirections at the front. -/
def redirects : (fuel : Nat) → List Token → List Redirect × List Token
  | 0, tokens => ([], tokens)
  | fuel + 1, tokens =>
    match redirect? tokens with
    | some (redirect, rest) =>
      let (others, rest) := redirects fuel rest
      (redirect :: others, rest)
    | none => ([], tokens)

/-- Assignments, words and redirections of a simple command. -/
def simpleParts : (fuel : Nat) → List Token →
    List (String × Word) × List Word × List Redirect × List Token
  | 0, tokens => ([], [], [], tokens)
  | fuel + 1, tokens =>
    match redirect? tokens with
    | some (redirect, rest) =>
      let (assignments, words, redirects, rest) := simpleParts fuel rest
      (assignments, words, redirect :: redirects, rest)
    | none =>
      match tokens with
      | .word parts :: rest =>
        let (assignments, words, redirects, rest) := simpleParts fuel rest
        (assignments, parts :: words, redirects, rest)
      | tokens => ([], [], [], tokens)

/-- Words at the front are assignments as long as they look like it. -/
def splitAssignments : List Word → List (String × Word) × List Word
  | [] => ([], [])
  | word :: rest =>
    match assignment? word with
    | some assignment =>
      let (assignments, words) := splitAssignments rest
      (assignment :: assignments, words)
    | none => ([], word :: rest)

/-- Words at the front, up to the next operator. -/
def wordsUntilOperator : List Token → List Word × List Token
  | .word parts :: rest =>
    let (others, rest) := wordsUntilOperator rest
    (parts :: others, rest)
  | tokens => ([], tokens)

/-- Patterns with bars between them, up to a closing parenthesis. -/
def casePatterns : List Token → Option (List Word × List Token)
  | .word pattern :: .operator "|" :: rest => do
    let (others, rest) ← casePatterns rest
    return (pattern :: others, rest)
  | .word pattern :: .operator ")" :: rest => some ([pattern], rest)
  | _ => none

mutual

/-- Commands up to where their list ends. -/
def readList : (fuel : Nat) → List Token → Option (List Command × List Token)
  | 0, _ => none
  | fuel + 1, tokens =>
    let tokens := skipBreaks tokens
    if atEnd tokens then some ([], tokens)
    else do
      let (command, tokens) ← readAndOr fuel tokens
      match operator? tokens with
      | some "&" =>
        let (others, tokens) ← readList fuel (tokens.drop 1)
        return (.background command :: others, tokens)
      | some ";" | some "\n" =>
        let (others, tokens) ← readList fuel (tokens.drop 1)
        return (command :: others, tokens)
      | _ => return ([command], tokens)

/-- A list of commands as one. -/
def readBody : (fuel : Nat) → List Token → Option (Command × List Token)
  | 0, _ => none
  | fuel + 1, tokens => do
    let (commands, tokens) ← readList fuel tokens
    return (.sequence commands, tokens)

/-- Pipelines that depend on the success of those before. -/
def readAndOr : (fuel : Nat) → List Token → Option (Command × List Token)
  | 0, _ => none
  | fuel + 1, tokens => do
    let (first, tokens) ← readPipeline fuel tokens
    readMore fuel first tokens

/-- What follows a command that others may depend on. -/
def readMore : (fuel : Nat) → Command → List Token → Option (Command × List Token)
  | 0, _, _ => none
  | fuel + 1, first, tokens =>
    match operator? tokens with
    | some "&&" => do
      let (second, tokens) ← readPipeline fuel (skipBreaks (tokens.drop 1))
      readMore fuel (.and first second) tokens
    | some "||" => do
      let (second, tokens) ← readPipeline fuel (skipBreaks (tokens.drop 1))
      readMore fuel (.or first second) tokens
    | _ => some (first, tokens)

/-- A pipeline. -/
def readPipeline : (fuel : Nat) → List Token → Option (Command × List Token)
  | 0, _ => none
  | fuel + 1, tokens => do
    let negated := reserved? tokens == some "!"
    let (commands, tokens) ← readStages fuel (if negated then tokens.drop 1 else tokens)
    match commands, negated with
    | [command], false => return (command, tokens)
    | commands, negated => return (.pipeline negated commands, tokens)

/-- The commands of a pipeline. -/
def readStages : (fuel : Nat) → List Token → Option (List Command × List Token)
  | 0, _ => none
  | fuel + 1, tokens => do
    let (command, tokens) ← readCommand fuel tokens
    if operator? tokens == some "|" then
      let (others, tokens) ← readStages fuel (skipBreaks (tokens.drop 1))
      return (command :: others, tokens)
    else return ([command], tokens)

/-- A command with its redirections. -/
def readCommand : (fuel : Nat) → List Token → Option (Command × List Token)
  | 0, _ => none
  | fuel + 1, tokens => do
    match reserved? tokens, tokens with
    | _, .word [.plain name] :: .operator "(" :: .operator ")" :: rest =>
      let (body, tokens) ← readCommand fuel (skipBreaks rest)
      return (.define name body, tokens)
    | some "if", _ => readCompound fuel (readIf fuel (tokens.drop 1))
    | some "while", _ => readCompound fuel (readLoop fuel false (tokens.drop 1))
    | some "until", _ => readCompound fuel (readLoop fuel true (tokens.drop 1))
    | some "for", _ => readCompound fuel (readFor fuel (tokens.drop 1))
    | some "case", _ => readCompound fuel (readCase fuel (tokens.drop 1))
    | some "\x7b", _ =>
      let (body, rest) ← readBody fuel (tokens.drop 1)
      let rest ← expectWord "\x7d" rest
      readCompound fuel (some (body, rest))
    | _, .operator "(" :: rest =>
      let (body, rest) ← readBody fuel rest
      let rest ← expectOperator ")" rest
      readCompound fuel (some (.subshell body, rest))
    | _, _ =>
      let (_, words, redirects, rest) := simpleParts (tokens.length + 1) tokens
      let (assignments, words) := splitAssignments words
      if assignments.isEmpty && words.isEmpty && redirects.isEmpty then none
      else return (.simple assignments words redirects, rest)

/-- Redirections after a command. -/
def readCompound : (fuel : Nat) → Option (Command × List Token) → Option (Command × List Token)
  | 0, _ => none
  | _ + 1, result => do
    let (command, tokens) ← result
    match redirects (tokens.length + 1) tokens with
    | ([], tokens) => return (command, tokens)
    | (redirects, tokens) => return (.redirected command redirects, tokens)

/-- What follows the word that starts a conditional command. -/
def readIf : (fuel : Nat) → List Token → Option (Command × List Token)
  | 0, _ => none
  | fuel + 1, tokens => do
    let (condition, tokens) ← readBody fuel tokens
    let (consequence, tokens) ← readBody fuel (← expectWord "then" tokens)
    match reserved? tokens with
    | some "elif" =>
      let (alternative, tokens) ← readIf fuel (tokens.drop 1)
      return (.conditional condition consequence alternative, tokens)
    | some "else" =>
      let (alternative, tokens) ← readBody fuel (tokens.drop 1)
      return (.conditional condition consequence alternative, ← expectWord "fi" tokens)
    | _ => return (.conditional condition consequence .nothing, ← expectWord "fi" tokens)

/-- What follows the word that starts a loop. -/
def readLoop : (fuel : Nat) → Bool → List Token → Option (Command × List Token)
  | 0, _, _ => none
  | fuel + 1, untilSuccess, tokens => do
    let (condition, tokens) ← readBody fuel tokens
    let (body, tokens) ← readBody fuel (← expectWord "do" tokens)
    return (.loop untilSuccess condition body, ← expectWord "done" tokens)

/-- What follows the word that starts a loop over words. -/
def readFor : (fuel : Nat) → List Token → Option (Command × List Token)
  | 0, _ => none
  | fuel + 1, tokens => do
    let name ← reserved? tokens
    let tokens := skipBreaks (tokens.drop 1)
    let (words, tokens) :=
      if reserved? tokens == some "in" then
        let (words, tokens) := wordsUntilOperator (tokens.drop 1)
        (some words, tokens)
      else (none, tokens)
    let tokens := if operator? tokens == some ";" then tokens.drop 1 else tokens
    let (body, tokens) ← readBody fuel (← expectWord "do" (skipBreaks tokens))
    return (.forEach name words body, ← expectWord "done" tokens)

/-- What follows the word that starts a choice by patterns. -/
def readCase : (fuel : Nat) → List Token → Option (Command × List Token)
  | 0, _ => none
  | fuel + 1, tokens => do
    match tokens with
    | .word word :: tokens =>
      let tokens ← expectWord "in" (skipBreaks tokens)
      let (branches, tokens) ← readBranches fuel tokens
      return (.caseOf word branches, tokens)
    | _ => none

/-- The branches of a choice, up to its end. -/
def readBranches : (fuel : Nat) → List Token → Option (List (List Word × Command) × List Token)
  | 0, _ => none
  | fuel + 1, tokens => do
    let tokens := skipBreaks tokens
    if reserved? tokens == some "esac" then return ([], tokens.drop 1)
    let tokens := if operator? tokens == some "(" then tokens.drop 1 else tokens
    let (patterns, tokens) ← casePatterns tokens
    let (body, tokens) ← readBody fuel tokens
    let tokens := if operator? tokens == some ";;" then tokens.drop 1 else tokens
    let (others, tokens) ← readBranches fuel tokens
    return ((patterns, body) :: others, tokens)

end

/-- The script that a text stands for, if it is a proper one. -/
def parse? (text : String) : Option Command := do
  let found := tokens (text.length + 1) text.toList
  let (body, rest) ← readBody (16 * found.length + 16) found
  if rest.isEmpty then some body else none

end Shell
end DebugBridge
