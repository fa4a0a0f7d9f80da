import DebugBridge.Proofs.Protocol.Command
import DebugBridge.Session.Basic

/-!
# Where command lines end

An engine takes what it reads as one line up to each zero byte.  Quoting lets a value keep its
blanks and quotes, but a zero character in a value goes out as it is: it ends the line within the
quotes, and what follows it in the value makes lines of its own.  The main statement counts the
lines of a command, and says that what a session writes is read as one line for each command
exactly if no value of them holds a zero character.
-/

namespace DebugBridge

/-- The lines in what an engine has received, without the zero bytes that end them. -/
def receivedLines (bytes : List UInt8) : List (List UInt8) := (bytes.splitOn 0).dropLast

theorem length_splitOn (b : UInt8) (bytes : List UInt8) :
    (bytes.splitOn b).length = bytes.count b + 1 := by
  induction bytes with
  | nil => rfl
  | cons c bytes ih =>
      rw [List.splitOn_cons_eq_if_modifyHead, List.count_cons]
      split
      · rw [List.length_cons, ih]
      · rw [List.length_modifyHead, ih, Nat.add_zero]

/-- A zero byte ends a line, whatever follows it. -/
theorem receivedLines_append (bytes rest : List UInt8) :
    receivedLines (bytes ++ 0 :: rest) = bytes.splitOn 0 ++ receivedLines rest := by
  rw [receivedLines, List.splitOn_append_cons_self,
    List.dropLast_append_of_ne_nil (List.splitOn_ne_nil 0 rest), receivedLines]

/-- As many lines have been received as zero bytes. -/
theorem length_receivedLines (bytes : List UInt8) :
    (receivedLines bytes).length = bytes.count 0 := by
  rw [receivedLines, List.length_dropLast, length_splitOn, Nat.add_sub_cancel]

namespace Command

variable {command : Command}

/-- A command line has the zero byte at its end, and one for each zero character of its values. -/
theorem count_encode (plain : PlainWords command) (id : Nat) :
    (command.encode id).count 0 = command.zeros + 1 := by
  rw [encode, List.count_append, Text.count_utf8, count_line plain]
  rfl

/-- What an engine reads of commands that are written one after the other. -/
theorem receivedLines_encodes (written : List (Nat × Command)) :
    receivedLines (written.flatMap fun entry => entry.2.encode entry.1) =
      written.flatMap fun entry => (Text.utf8 (entry.2.line entry.1)).splitOn 0 := by
  induction written with
  | nil => rfl
  | cons entry written ih =>
      rw [List.flatMap_cons, List.flatMap_cons, ← ih, encode, List.append_assoc,
        List.singleton_append, receivedLines_append]

/-- The commands have as many zero bytes as there are commands and zero characters in values. -/
theorem count_encodes {written : List (Nat × Command)}
    (plain : ∀ entry ∈ written, PlainWords entry.2) :
    (written.flatMap fun entry => entry.2.encode entry.1).count 0 =
      (written.map fun entry => entry.2.zeros).sum + written.length := by
  induction written with
  | nil => rfl
  | cons entry written ih =>
      rw [List.flatMap_cons, List.count_append, count_encode (plain entry List.mem_cons_self),
        ih fun other member => plain other (List.mem_cons_of_mem entry member), List.map_cons,
        List.sum_cons, List.length_cons]
      omega

/-- Commands are read as one line each exactly if no value in them holds a zero character. -/
theorem receivedLines_encodes_eq_iff {written : List (Nat × Command)}
    (plain : ∀ entry ∈ written, PlainWords entry.2) :
    receivedLines (written.flatMap fun entry => entry.2.encode entry.1) =
        written.map (fun entry => Text.utf8 (entry.2.line entry.1)) ↔
      ∀ entry ∈ written, entry.2.zeros = 0 := by
  constructor
  · intro lines
    have length := congrArg List.length lines
    rw [length_receivedLines, count_encodes plain, List.length_map] at length
    have none : (written.map fun entry => entry.2.zeros).sum = 0 := by omega
    rw [List.sum_eq_zero_iff_forall_eq_nat, List.forall_mem_map] at none
    exact none
  · intro none
    have single : ∀ entry ∈ written, (Text.utf8 (entry.2.line entry.1)).splitOn 0 =
        [Text.utf8 (entry.2.line entry.1)] := by
      intro entry member
      apply List.splitOn_eq_singleton
      rw [← List.count_eq_zero, Text.count_utf8, count_line (plain entry member)]
      exact none entry member
    rw [receivedLines_encodes, List.flatMap_def, List.map_congr_left single, ← List.flatMap_def,
      List.map_eq_flatMap]

end Command

namespace Session

/-- The commands that were written, with their transaction ids. -/
def written (log : List Effect) : List (Nat × Command) :=
  log.filterMap fun
    | .write _ _ id command => some (id, command)
    | _ => none

/-- The bytes that were written. -/
def writtenBytes (log : List Effect) : List UInt8 :=
  log.flatMap fun
    | .write _ _ id command => command.encode id
    | _ => []

theorem writtenBytes_eq (log : List Effect) :
    writtenBytes log = (written log).flatMap fun entry => entry.2.encode entry.1 := by
  induction log with
  | nil => rfl
  | cons effect log ih =>
      rw [writtenBytes, List.flatMap_cons, ← writtenBytes, ih]
      cases effect <;> rfl

/-- A command ends with a zero byte and has one more for each zero character of its values; and
whatever is asked of a session, an engine reads what it writes as one line for each command exactly
if no value in these holds a zero character. -/
theorem lines_of_writtenBytes {command : Command} (plain : command.PlainWords) (id : Nat)
    {inputs : List Input}
    (plains : ∀ entry ∈ written (initial.run inputs).2, entry.2.PlainWords) :
    (command.encode id).getLast? = some 0 ∧
      (command.encode id).count 0 = command.zeros + 1 ∧
      (receivedLines (writtenBytes (initial.run inputs).2) =
          (written (initial.run inputs).2).map (fun entry => Text.utf8 (entry.2.line entry.1)) ↔
        ∀ entry ∈ written (initial.run inputs).2, ∀ arg ∈ entry.2.args,
          '\x00' ∉ arg.2.toList) := by
  refine ⟨?_, Command.count_encode plain id, ?_⟩
  · rw [Command.encode, List.getLast?_concat]
  · rw [writtenBytes_eq, Command.receivedLines_encodes_eq_iff plains]
    simp only [Command.zeros_eq_zero_iff]

/-- A value with blanks, a quote and a backslash stays within its line. -/
theorem lines_of_writtenBytes_quoted :
    (∀ entry ∈ written (initial.run [.submit ((Command.named "eval").arg 'n' "a \x22\\ b"),
        .attend]).2, entry.2.PlainWords) ∧
      receivedLines (writtenBytes (initial.run
        [.submit ((Command.named "eval").arg 'n' "a \x22\\ b"), .attend]).2) =
        [Text.bytesOf "eval -i 1 -n \x22a \\\x22\\\\ b\x22"] := by
  have plain : (Command.named "stop").PlainWords := ⟨by decide, by decide⟩
  have plains : ∀ entry ∈ written (initial.run
      [.submit ((Command.named "eval").arg 'n' "a \x22\\ b"), .attend]).2,
      entry.2.PlainWords := by
    intro entry member
    obtain rfl := List.mem_singleton.1 member
    exact ⟨by decide, by decide⟩
  refine ⟨plains, ((lines_of_writtenBytes plain 1 plains).2.2.2 ?_).trans ?_⟩
  · intro entry member
    obtain rfl := List.mem_singleton.1 member
    decide
  · decide +kernel

end Session

namespace Command

/-- A command with a value that brings a command of its own. -/
def smuggler : Command := (named "property_get").arg 'n' "x\x00stop -i 9\x00"

/-- The one command is read as three lines, of which the second is another command. -/
theorem lines_of_smuggler :
    smuggler.PlainWords ∧ (smuggler.encode 1).count 0 = 3 ∧
      receivedLines (smuggler.encode 1) = [Text.bytesOf "property_get -i 1 -n \x22x",
        Text.bytesOf "stop -i 9", Text.bytesOf "\x22"] ∧
      parse (Text.bytesOf "stop -i 9") = .ok (9, named "stop") := by
  refine ⟨⟨by decide, by decide⟩, ?_, ?_, ?_⟩
  · decide +kernel
  · decide +kernel
  · cbv

end Command
end DebugBridge
