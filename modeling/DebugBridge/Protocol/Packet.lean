import DebugBridge.Protocol.Response

/-!
Packets of the engine: the greeting, output of the script, notifications and answers.
-/

namespace DebugBridge

/-- The greeting that an engine sends as soon as it is connected. -/
structure InitPacket where
  /-- Id of the process. -/
  appId : String
  /-- Key of the user. -/
  ideKey : String
  /-- Cookie of the session. -/
  session : String
  /-- Id of the thread. -/
  thread : String
  /-- Id of the application that started this one. -/
  parent : String
  /-- Language of the script. -/
  language : String
  /-- Version of the protocol. -/
  protocolVersion : String
  /-- The script. -/
  fileUri : String
  deriving DecidableEq, Repr

/-- The greeting that an element describes. -/
def InitPacket.ofElement (element : Element) : InitPacket :=
  { appId := element.attr "appid"
    ideKey := element.attr "ide_key"
    session := element.attr "session"
    thread := element.attr "thread"
    parent := element.attr "parent"
    language := element.attr "language"
    protocolVersion := element.attr "protocol_version"
    fileUri := element.attr "fileuri" }

/-- The streams that a script writes to. -/
inductive StreamKind where
  /-- Standard output. -/
  | stdout
  /-- Standard error. -/
  | stderr
  deriving DecidableEq, Repr

/-- Output of the script. -/
structure StreamPacket where
  /-- The stream. -/
  kind : StreamKind
  /-- Encoding on the wire. -/
  encoding : String
  /-- The text. -/
  data : String
  deriving DecidableEq, Repr

/-- The stream with a name. -/
def StreamKind.parse (name : String) : Except ProtocolError StreamKind :=
  match name with
  | "stdout" => .ok .stdout
  | "stderr" => .ok .stderr
  | name => .error (.unknownPacket ("stream type " ++ name))

/-- The output that an element describes. -/
def StreamPacket.ofElement (element : Element) : Except ProtocolError StreamPacket := do
  let some name := element.attr? "type" | .error (.missingAttribute element.name "type")
  let kind ← StreamKind.parse name
  let encoding := (element.attr? "encoding").getD "none"
  return { kind, encoding, data := ← decodeText element.text encoding }

/-- A packet of the engine. -/
inductive Packet where
  /-- The greeting. -/
  | init (packet : InitPacket)
  /-- Output of the script. -/
  | stream (packet : StreamPacket)
  /-- A notification. -/
  | notify (element : Element)
  /-- An answer to a command. -/
  | response (response : Response)

namespace Packet

/-- The packet that an element describes. -/
def ofElement (element : Element) : Except ProtocolError Packet :=
  match element.name with
  | "init" => .ok (.init (.ofElement element))
  | "stream" => (StreamPacket.ofElement element).map .stream
  | "response" => (Response.ofElement element).map .response
  | "notify" => .ok (.notify element)
  | name => .error (.unknownPacket name)

/-- The packet in a payload. -/
def parse (payload : List Char) : Except ProtocolError Packet := do
  ofElement (← (Markup.parse payload).mapError .invalidMarkup)

end Packet
end DebugBridge
