import DebugBridge.Text.Word

/-!
Shell scripts: words with their parts, and commands that are put together from simpler ones.
-/

namespace DebugBridge
namespace Shell

/-- What is done with the value of a parameter. -/
inductive Change where
  /-- Nothing. -/
  | none
  /-- Its length is taken. -/
  | length
  /-- A word stands for it if it is unset, or empty where that counts as well. -/
  | default (orEmpty : Bool)
  /-- As before, and the word becomes its value. -/
  | assign (orEmpty : Bool)
  /-- A word stands for it unless it is unset, or empty where that counts as well. -/
  | alternative (orEmpty : Bool)
  /-- It is an error if it is unset, or empty where that counts as well. -/
  | require (orEmpty : Bool)
  /-- The shortest or the longest match of a pattern at its front is dropped. -/
  | dropFront (longest : Bool)
  /-- The shortest or the longest match of a pattern at its back is dropped. -/
  | dropBack (longest : Bool)
  deriving DecidableEq, Repr

/-- Whether the argument of a change is a pattern, in which quotes around the whole do not count. -/
def Change.takesPattern : Change → Bool
  | .dropFront _ | .dropBack _ => true
  | _ => false

/-- A part of a word. -/
inductive Part where
  /-- Plain text. -/
  | plain (content : String)
  /-- Text without special meaning. -/
  | quoted (content : String)
  /-- The value of a parameter; the argument belongs to the change. -/
  | parameter (name : String) (change : Change) (argument : List Part) (isQuoted : Bool)
  /-- The value of an arithmetic expression. -/
  | arithmetic (source : List Part) (isQuoted : Bool)
  /-- The output of a script. -/
  | output (script : String) (isQuoted : Bool)

/-- A word. -/
abbrev Word := List Part

/-- What is done with a file descriptor. -/
inductive RedirectMode where
  /-- It reads a file. -/
  | read
  /-- It writes a file anew. -/
  | write
  /-- It writes at the end of a file. -/
  | append
  /-- It becomes a copy of another one, or is closed. -/
  | duplicate
  deriving DecidableEq, Repr

/-- A redirection. -/
structure Redirect where
  /-- The descriptor. -/
  descriptor : Nat
  /-- What is done with it. -/
  mode : RedirectMode
  /-- The file or the other descriptor. -/
  target : Word

/-- A command. -/
inductive Command where
  /-- Assignments and a program with its arguments. -/
  | simple (assignments : List (String × Word)) (words : List Word) (redirects : List Redirect)
  /-- Commands of which each reads what the one before writes. -/
  | pipeline (negated : Bool) (commands : List Command)
  /-- Two commands, the second one only if the first one succeeds. -/
  | and (first second : Command)
  /-- Two commands, the second one only if the first one fails. -/
  | or (first second : Command)
  /-- Commands one after another. -/
  | sequence (commands : List Command)
  /-- A command that nobody waits for. -/
  | background (command : Command)
  /-- One of two commands, depending on whether the condition succeeds. -/
  | conditional (condition consequence alternative : Command)
  /-- A command again and again, as long as the condition succeeds or, the other way round,
  fails. -/
  | loop (untilSuccess : Bool) (condition body : Command)
  /-- A command for each of some words; without words, for each argument. -/
  | forEach (name : String) (words : Option (List Word)) (body : Command)
  /-- The command of the first branch with a pattern that a word matches. -/
  | caseOf (word : Word) (branches : List (List Word × Command))
  /-- A command in an environment of its own. -/
  | subshell (command : Command)
  /-- A command with redirections. -/
  | redirected (command : Command) (redirects : List Redirect)
  /-- The definition of a function. -/
  | define (name : String) (body : Command)

/-- The command that does nothing. -/
def Command.nothing : Command := .sequence []

end Shell
end DebugBridge
