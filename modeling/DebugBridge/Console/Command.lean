import DebugBridge.FrontEnd.Shapes
import DebugBridge.Text.Blank

/-!
The commands of the console.  A line is a command's name and its arguments with blanks between
them; blanks around the line do not count.  Reading the line of a command gives the command back.
-/

namespace DebugBridge

/-- A command of the console. -/
inductive ConsoleCommand where
  /-- On to the next breakpoint. -/
  | continue
  /-- On to the next line. -/
  | next
  /-- On to the next line, also in another function. -/
  | stepIn
  /-- Out of the function. -/
  | stepOut
  /-- Stop where it is. -/
  | pause
  /-- The threads. -/
  | threads
  /-- The frames of the stack. -/
  | stackTrace
  /-- The groups of variables of a frame. -/
  | scopes (frame : Int64)
  /-- The variables in something. -/
  | variablesIn (reference : Int64)
  /-- The value of an expression. -/
  | evaluate (expression : String)
  /-- The names that complete a text. -/
  | completions (text : String)
  /-- The source files. -/
  | loadedSources
  /-- The exception on which the script has stopped. -/
  | exceptionInfo
  /-- The breakpoints. -/
  | breakpoints
  /-- Replace the breakpoints on lines of a file. -/
  | setBreakpoints (file : String) (lines : List UInt32)
  /-- Replace the breakpoints on functions. -/
  | setFunctionBreakpoints (names : List String)
  /-- Choose the exceptions to stop on. -/
  | setExceptionBreakpoints (filters : List String)
  /-- End the debugging. -/
  | disconnect
  deriving DecidableEq, Repr

/-- Why a line is no command. -/
inductive ConsoleFault where
  /-- A number is expected, with what it stands for, and something else is there. -/
  | needsNumber (command meaning found : String)
  /-- There is no expression. -/
  | needsExpression
  /-- There is no file. -/
  | needsFile
  /-- A word is no line number. -/
  | notLine (word : String)
  /-- The line is empty. -/
  | empty
  /-- No command has this name. -/
  | unknown (name : String)
  deriving DecidableEq, Repr

/-- A text in the quotes of this console. -/
def ConsoleFault.quoted (text : String) : String := "\x60" ++ text ++ "\x60"

/-- The wording of a fault. -/
def ConsoleFault.message : ConsoleFault → String
  | .needsNumber command meaning found =>
    quoted command ++ " needs a " ++ meaning ++ ", got " ++ quoted found
  | .needsExpression => quoted "evaluate" ++ " needs an expression"
  | .needsFile => quoted "setBreakpoints" ++ " needs a file"
  | .notLine word => quoted word ++ " is not a line number"
  | .empty => "empty command"
  | .unknown name => "unknown command " ++ quoted name

namespace ConsoleCommand

/-- The name of a command. -/
def name : ConsoleCommand → String
  | .continue => "continue"
  | .next => "next"
  | .stepIn => "stepIn"
  | .stepOut => "stepOut"
  | .pause => "pause"
  | .threads => "threads"
  | .stackTrace => "stackTrace"
  | .scopes _ => "scopes"
  | .variablesIn _ => "variables"
  | .evaluate _ => "evaluate"
  | .completions _ => "completions"
  | .loadedSources => "loadedSources"
  | .exceptionInfo => "exceptionInfo"
  | .breakpoints => "breakpoints"
  | .setBreakpoints _ _ => "setBreakpoints"
  | .setFunctionBreakpoints _ => "setFunctionBreakpoints"
  | .setExceptionBreakpoints _ => "setExceptionBreakpoints"
  | .disconnect => "disconnect"

/-- The arguments of a command in writing. -/
def arguments : ConsoleCommand → List String
  | .scopes frame => [toString frame.toInt]
  | .variablesIn reference => [toString reference.toInt]
  | .evaluate expression => [expression]
  | .completions text => [text]
  | .setBreakpoints file lines => file :: lines.map fun line => toString line.toNat
  | .setFunctionBreakpoints names => names
  | .setExceptionBreakpoints filters => filters
  | _ => []

/-- The line of a command. -/
def line (command : ConsoleCommand) : String := " ".intercalate (command.name :: command.arguments)

/-- The argument of a command as data. -/
def argumentValue : ConsoleCommand → Value
  | .scopes frame => .int64 frame
  | .variablesIn reference => .int64 reference
  | .evaluate expression => .text expression
  | .completions text => .text text
  | .setBreakpoints file lines =>
    .record [("file", .text file), ("lines", .listOf .word32 lines)]
  | .setFunctionBreakpoints names => .texts names
  | .setExceptionBreakpoints filters => .texts filters
  | _ => .null

/-- The first word of a line and the rest, both without blanks around them. -/
def split (line : List Char) : List Char × List Char :=
  let line := Text.trim line
  let first := line.takeWhile fun c => !Text.isBlank c
  (first, Text.trim (line.drop first.length))

/-- The number that is the only argument of a command. -/
def number (command meaning : String) (rest : List Char) : Except ConsoleFault Int64 :=
  match Text.boundedInt? Text.maxSigned rest with
  | some value => .ok (Int64.ofInt value)
  | none => .error (.needsNumber command meaning (String.ofList rest))

/-- A line number. -/
def lineNumber (word : List Char) : Except ConsoleFault UInt32 :=
  match Text.bounded? Text.maxWord word with
  | some value => .ok (UInt32.ofNat value)
  | none => .error (.notLine (String.ofList word))

/-- The words of a text. -/
def words (text : List Char) : List String := (Text.words text).map String.ofList

/-- The command with a name and arguments. -/
def ofParts (name : String) (rest : List Char) : Except ConsoleFault ConsoleCommand :=
  match name with
  | "continue" => .ok .continue
  | "next" => .ok .next
  | "stepIn" => .ok .stepIn
  | "stepOut" => .ok .stepOut
  | "pause" => .ok .pause
  | "threads" => .ok .threads
  | "stackTrace" => .ok .stackTrace
  | "scopes" => (number name "frame id" rest).map .scopes
  | "variables" => (number name "variables reference" rest).map .variablesIn
  | "evaluate" =>
    if rest.isEmpty then .error .needsExpression else .ok (.evaluate (String.ofList rest))
  | "completions" => .ok (.completions (String.ofList rest))
  | "loadedSources" => .ok .loadedSources
  | "exceptionInfo" => .ok .exceptionInfo
  | "breakpoints" => .ok .breakpoints
  | "setBreakpoints" =>
    match Text.words rest with
    | [] => .error .needsFile
    | file :: lines => (lines.mapM lineNumber).map (.setBreakpoints (String.ofList file))
  | "setFunctionBreakpoints" => .ok (.setFunctionBreakpoints (words rest))
  | "setExceptionBreakpoints" => .ok (.setExceptionBreakpoints (words rest))
  | "disconnect" => .ok .disconnect
  | "" => .error .empty
  | name => .error (.unknown name)

/-- The command on a line. -/
def parse (line : String) : Except ConsoleFault ConsoleCommand :=
  let (name, rest) := split line.toList
  ofParts (String.ofList name) rest

end ConsoleCommand
end DebugBridge
