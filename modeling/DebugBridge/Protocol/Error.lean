import DebugBridge.Protocol.Markup
import DebugBridge.Text.Base64
import DebugBridge.Text.Quoted

/-!
What can go wrong on the wire, and what the engine reports as wrong.
-/

namespace DebugBridge

/-- Why text that should be base-64 does not give text. -/
inductive DataFault where
  /-- The text is not canonical base-64. -/
  | encoding (fault : Text.Base64.Fault)
  /-- The bytes are no text. -/
  | text (fault : Text.Utf8Error)
  deriving DecidableEq, Repr

/-- The wording of a data fault. -/
def DataFault.message : DataFault → String
  | .encoding fault => fault.message
  | .text fault => fault.message

/-- Why a command line cannot be read. -/
inductive CommandFault where
  /-- There is no name. -/
  | empty
  /-- A flag is the last token. -/
  | noValue (flag : Char)
  /-- The transaction id is no number. -/
  | transactionId (text : String)
  /-- There is no transaction id. -/
  | noTransactionId
  /-- A token stands where a flag is needed. -/
  | noFlag (token : String)
  /-- A quoted value is not closed. -/
  | unterminated
  deriving DecidableEq, Repr

/-- The wording of a command fault. -/
def CommandFault.message : CommandFault → String
  | .empty => "empty command line"
  | .noValue flag => "flag -" ++ String.singleton flag ++ " has no value"
  | .transactionId text => "invalid transaction id " ++ Text.quoted text
  | .noTransactionId => "missing -i transaction id"
  | .noFlag token => "expected a flag, found " ++ Text.quoted token
  | .unterminated => "unterminated quoted value"

/-- A fault on the wire: bad framing, bad markup, or a response that nobody waits for. -/
inductive ProtocolError where
  /-- The length of a frame is no number. -/
  | invalidLength (header : String)
  /-- No zero byte follows a payload. -/
  | missingTerminator
  /-- A payload or command line is no text. -/
  | invalidText
  /-- A payload holds no element. -/
  | invalidMarkup (fault : Markup.Fault)
  /-- A status that does not exist. -/
  | unknownStatus (text : String)
  /-- A reason that does not exist. -/
  | unknownReason (text : String)
  /-- A packet of another kind than those known. -/
  | unknownPacket (name : String)
  /-- An attribute that is needed is missing or cannot be read. -/
  | missingAttribute (element attr : String)
  /-- Base-64 text that cannot be decoded. -/
  | invalidData (fault : DataFault)
  /-- No command with a transaction id is pending. -/
  | unmatchedTransaction (id : Nat)
  /-- A command line that cannot be read. -/
  | malformedCommand (fault : CommandFault)
  deriving DecidableEq, Repr

/-- The wording of a markup fault. -/
def Markup.Fault.message : Markup.Fault → String
  | .malformed => "malformed markup"
  | .unclosed name => "unclosed element <" ++ name ++ ">"
  | .rootless => "document has no root element"

/-- The wording of a fault on the wire. -/
def ProtocolError.message : ProtocolError → String
  | .invalidLength header => "invalid frame length: " ++ Text.quoted header
  | .missingTerminator => "frame payload is not NUL-terminated"
  | .invalidText => "frame payload is not valid UTF-8"
  | .invalidMarkup fault => "invalid XML payload: " ++ fault.message
  | .unknownStatus text => "invalid XML payload: unknown status " ++ Text.quoted text
  | .unknownReason text => "invalid XML payload: unknown reason " ++ Text.quoted text
  | .unknownPacket name => "unknown packet type: " ++ name
  | .missingAttribute element attr =>
    "<" ++ element ++ "> is missing attribute `" ++ attr ++ "`"
  | .invalidData fault => "invalid base64 data: " ++ fault.message
  | .unmatchedTransaction id => "no pending transaction with id " ++ toString id
  | .malformedCommand fault => "malformed command: " ++ fault.message

/-- The broad classes of errors that an engine reports. -/
inductive ErrorClass where
  /-- Errors in the command line. -/
  | commandParsing
  /-- Errors with files. -/
  | file
  /-- Errors with breakpoints and the flow of the script. -/
  | breakpoint
  /-- Errors with data. -/
  | data
  /-- Errors of the protocol itself. -/
  | protocol
  /-- Errors outside the documented ranges. -/
  | unknown
  deriving DecidableEq, Repr

/-- The class of an error code. -/
def ErrorClass.ofCode (code : Nat) : ErrorClass :=
  if code ≤ 99 then .commandParsing
  else if code ≤ 199 then .file
  else if code ≤ 299 then .breakpoint
  else if code ≤ 399 then .data
  else if 900 ≤ code && code ≤ 999 then .protocol
  else .unknown

/-- An error that the engine reports for a command. -/
structure EngineError where
  /-- The command that failed. -/
  command : String
  /-- The error code. -/
  code : Nat
  /-- The engine's own words. -/
  text : String
  deriving DecidableEq, Repr

namespace EngineError

/-- The code for a command that the engine does not have. -/
def unimplemented : Nat := 4

/-- The code for a breakpoint that does not exist. -/
def noSuchBreakpoint : Nat := 205

/-- The wording of an engine's error. -/
def message (error : EngineError) : String :=
  "engine error " ++ toString error.code ++ " on `" ++ error.command ++ "`: " ++ error.text

/-- The class of an engine's error. -/
def errorClass (error : EngineError) : ErrorClass := .ofCode error.code

end EngineError
end DebugBridge
