import DebugBridge.Debugger.Event

/-!
The lines that the console writes: events, and answers to commands.
-/

namespace DebugBridge

/-- A line that the console writes. -/
inductive ConsoleLine where
  /-- Something has happened. -/
  | event (name : String) (body : Option Value)
  /-- The answer to a command, or why there is none. -/
  | answer (command : String) (result : Except String Value)

namespace ConsoleLine

/-- The line as data. -/
def toValue : ConsoleLine → Value
  | .event name body => .record ([("event", .text name)] ++ Value.present "body" id body)
  | .answer command (.ok body) =>
    .record [("command", .text command), ("success", .boolean true), ("body", body)]
  | .answer command (.error message) =>
    .record [("command", .text command), ("success", .boolean false), ("message", .text message)]

/-- The answer to a command that has nothing to say. -/
def done (command : String) : ConsoleLine := .answer command (.ok (.record []))

/-- The line that tells the front end of an event, where it cares. -/
def ofEvent? (event : DebugEvent) : Option ConsoleLine :=
  match event.output?, event.exited?, event with
  | some output, _, _ => some (.event "output" (some output.toValue))
  | none, some exited, _ => some (.event "exited" (some exited.toValue))
  | none, none, .socketClose => some (.event "terminated" none)
  | none, none, _ => none

end ConsoleLine
end DebugBridge
