import DebugBridge.Text.Number

/-!
Signals by name and number, and what they do to a process that does not care for them.
-/

namespace DebugBridge
namespace Shell
namespace Signal

/-- Names with their numbers. -/
def names : List (String × Nat) :=
  [("EXIT", 0), ("HUP", 1), ("INT", 2), ("QUIT", 3), ("ILL", 4), ("TRAP", 5), ("ABRT", 6),
    ("BUS", 7), ("FPE", 8), ("KILL", 9), ("USR1", 10), ("SEGV", 11), ("USR2", 12), ("PIPE", 13),
    ("ALRM", 14), ("TERM", 15), ("CHLD", 17), ("CONT", 18), ("STOP", 19), ("TSTP", 20),
    ("TTIN", 21), ("TTOU", 22), ("URG", 23), ("WINCH", 28)]

/-- The number of the signal that ends a process unless it objects. -/
def terminate : Nat := 15

/-- The signal that a name or a number stands for. -/
def ofText? (text : String) : Option Nat :=
  match Text.decimal? text.toList with
  | some number => some number
  | none => (names.find? fun entry => entry.1 == text || "SIG" ++ entry.1 == text).map Prod.snd

/-- What is said of a process that a signal has ended; nothing of some signals. -/
def obituary? : Nat → Option String
  | 1 => some "Hangup"
  | 3 => some "Quit"
  | 4 => some "Illegal instruction"
  | 6 => some "Aborted"
  | 8 => some "Floating point exception"
  | 9 => some "Killed"
  | 10 => some "User defined signal 1"
  | 11 => some "Segmentation fault"
  | 12 => some "User defined signal 2"
  | 14 => some "Alarm clock"
  | 15 => some "Terminated"
  | _ => none

/-- Whether a process cannot object to a signal. -/
def isFinal (number : Nat) : Bool := number == 9 || number == 19

/-- Whether a signal does nothing to a process that does not care. -/
def isIdle (number : Nat) : Bool := [0, 17, 18, 23, 28].contains number

/-- Whether a signal stops a process that does not care, without ending it. -/
def stops (number : Nat) : Bool := [19, 20, 21, 22].contains number

end Signal
end Shell
end DebugBridge
