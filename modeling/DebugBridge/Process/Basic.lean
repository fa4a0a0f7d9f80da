import DebugBridge.File.Host
import DebugBridge.Text.Utf8

/-!
Processes as others see them: how one is started, and what it prints, changes and ends with, each
thing at its time.  A process that is ended from outside does nothing more.
-/

namespace DebugBridge

/-- How a process is started. -/
structure ProcessCall where
  /-- The program. -/
  program : String
  /-- Its arguments. -/
  arguments : List String
  /-- The directory it runs in. -/
  directory : String
  /-- Environment variables that it gets besides those there are. -/
  bindings : List (String × String)
  deriving DecidableEq, Repr

/-- The end of a process. -/
structure ProcessEnd where
  /-- When it ends. -/
  time : Nat
  /-- Its exit code, unless a signal ended it. -/
  code : Option Int
  deriving DecidableEq, Repr

/-- What a process does, with times in milliseconds since its start. -/
structure Timeline where
  /-- Pieces of output in order, with the time and whether it is error output. -/
  printed : List (Nat × Bool × List UInt8)
  /-- Its end, unless that is too late to be seen. -/
  finish : Option ProcessEnd
  /-- When nobody is left who could print. -/
  silence : Nat
  /-- The files after each change, in order, with the time. -/
  changes : List (Nat × FileTree)

namespace Timeline

/-- How long the output of a process is waited for after its end, for each of two kinds. -/
def drainTime : Nat := 1000

/-- All output of a kind. -/
def outputOf (timeline : Timeline) (isError : Bool) : List UInt8 :=
  timeline.printed.flatMap fun (_, kind, bytes) => if kind == isError then bytes else []

/-- The bytes of a kind of output, each with its time. -/
def timedBytes (timeline : Timeline) (isError : Bool) : List (Nat × UInt8) :=
  timeline.printed.flatMap fun (time, kind, bytes) =>
    if kind == isError then bytes.map (time, ·) else []

/-- Lines with their ends, each with the time of its last byte; a last line without an end is seen
at a time `close`.  `current` is the line that has been begun, reversed. -/
def cutLines (close : Nat) (current : List UInt8) : List (Nat × UInt8) → List (Nat × List UInt8)
  | [] => if current.isEmpty then [] else [(close, current.reverse)]
  | (time, byte) :: rest =>
    if byte == 10 then (time, (byte :: current).reverse) :: cutLines close [] rest
    else cutLines close (byte :: current) rest

/-- A line as it is shown, with the end of lines that is usual here. -/
def shownLine (bytes : List UInt8) : String := (Text.textOf bytes).replace "\r\n" "\n"

/-- The lines of a kind of output, with their times. -/
def linesOf (timeline : Timeline) (isError : Bool) : List (Nat × Bool × String) :=
  (cutLines timeline.silence [] (timeline.timedBytes isError)).map fun (time, bytes) =>
    (time, isError, shownLine bytes)

/-- The lines of both kinds of output in order, with their times and whether they are errors. -/
def lines (timeline : Timeline) : List (Nat × Bool × String) :=
  (timeline.linesOf false ++ timeline.linesOf true).mergeSort fun first second => first.1 ≤ second.1

/-- The end as it is reported, which is when all output has been seen, or when that takes too
long. -/
def reportedEnd? (timeline : Timeline) : Option ProcessEnd :=
  timeline.finish.map fun finish =>
    { finish with
      time := max finish.time (min timeline.silence (finish.time + 2 * drainTime)) }

/-- The files that there are at a time, if there were some from the start. -/
def filesAt (timeline : Timeline) (files : FileTree) (time : Nat) : FileTree :=
  match (timeline.changes.filter fun change => change.1 ≤ time).getLast? with
  | some (_, changed) => { changed with workingPlace := files.workingPlace }
  | none => files

/-- When a path names something for the first time, if there were some files from the start. -/
def appearance? (timeline : Timeline) (files : FileTree) (path : String) : Option Nat :=
  (0 :: timeline.changes.map Prod.fst).find? fun time => (timeline.filesAt files time).names path

/-- The same process if it is ended from outside at a time. -/
def endedAt (timeline : Timeline) (time : Nat) : Timeline :=
  if timeline.finish.any fun finish => finish.time ≤ time then timeline
  else
    { printed := timeline.printed.filter fun piece => piece.1 ≤ time
      finish := some { time, code := none }
      silence := time
      changes := timeline.changes.filter fun change => change.1 ≤ time }

end Timeline
end DebugBridge
