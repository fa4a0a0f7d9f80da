import DebugBridge.Protocol.Error
import DebugBridge.Text.Case

/-!
Answers of the engine, and what the various commands find in them.
-/

namespace DebugBridge

/-- Text as an element carries it, in an encoding that is base-64 or plain.  Blanks inside base-64
text do not count, and bytes that are no text become replacement characters. -/
def decodeText (text encoding : String) : Except ProtocolError String :=
  if Text.equalIgnoringCase encoding "base64" then
    let cleaned := text.toList.filter fun c => !Text.isBlank c
    match Text.Base64.decode (Text.utf8 cleaned) with
    | .ok bytes => .ok (Text.textOf bytes)
    | .error fault => .error (.invalidData (.encoding fault))
  else .ok text

/-- The state in which the engine says the script is. -/
inductive RunState where
  /-- Not started yet. -/
  | starting
  /-- Running. -/
  | running
  /-- Suspended. -/
  | break
  /-- Finished, the engine being still there. -/
  | stopping
  /-- Finished. -/
  | stopped
  deriving DecidableEq, Repr

namespace RunState

/-- Whether the state is the last one. -/
def isTerminal (state : RunState) : Bool := state == .stopped

/-- The state's name on the wire. -/
def name : RunState → String
  | .starting => "starting"
  | .running => "running"
  | .break => "break"
  | .stopping => "stopping"
  | .stopped => "stopped"

/-- The state with a name. -/
def parse (text : String) : Except ProtocolError RunState :=
  match text with
  | "starting" => .ok .starting
  | "running" => .ok .running
  | "break" => .ok .break
  | "stopping" => .ok .stopping
  | "stopped" => .ok .stopped
  | text => .error (.unknownStatus text)

end RunState

/-- Why the engine is in its state. -/
inductive StatusReason where
  /-- All is well. -/
  | ok
  /-- An error occurred. -/
  | error
  /-- The script was aborted. -/
  | aborted
  /-- An exception was raised. -/
  | exception
  deriving DecidableEq, Repr

/-- The reason with a name. -/
def StatusReason.parse (text : String) : Except ProtocolError StatusReason :=
  match text with
  | "ok" => .ok .ok
  | "error" => .ok .error
  | "aborted" => .ok .aborted
  | "exception" => .ok .exception
  | text => .error (.unknownReason text)

/-- A breakpoint as the engine reports it. -/
structure EngineBreakpoint where
  /-- The engine's id. -/
  id : Nat
  /-- Type of the breakpoint. -/
  kind : String
  /-- Whether it is enabled, in the engine's word. -/
  state : String
  /-- File of the breakpoint. -/
  fileUri : Option String
  /-- Line of the breakpoint. -/
  line : Option Nat
  /-- Function of the breakpoint. -/
  function : Option String
  /-- Exception of the breakpoint. -/
  exception : Option String
  /-- Number of hits that the condition compares with. -/
  hitValue : Option Nat
  /-- How hits are compared. -/
  hitCondition : Option String
  /-- Number of hits so far. -/
  hitCount : Option Nat
  /-- Whether it goes away when it is hit. -/
  temporary : Bool
  /-- The condition. -/
  expression : Option String
  deriving DecidableEq, Repr

/-- The breakpoint that an element describes. -/
def EngineBreakpoint.ofElement (element : Element) : EngineBreakpoint :=
  { id := (element.word? "id").getD 0
    kind := (element.attr? "type").getD "line"
    state := (element.attr? "state").getD "enabled"
    fileUri := element.attr? "filename"
    line := element.word? "lineno"
    function := element.attr? "function"
    exception := element.attr? "exception"
    hitValue := element.word? "hit_value"
    hitCondition := element.attr? "hit_condition"
    hitCount := element.word? "hit_count"
    temporary := element.flag "temporary"
    expression := (element.child? "expression").bind fun child =>
      (decodeText (Text.trimmed child.text) ((child.attr? "encoding").getD "base64")).toOption }

/-- A frame of the call stack as the engine reports it. -/
structure EngineFrame where
  /-- Depth, zero being the innermost frame. -/
  level : Nat
  /-- Type of the frame. -/
  kind : String
  /-- File of the frame. -/
  fileUri : String
  /-- Line of the frame. -/
  line : Nat
  /-- Function or label of the frame. -/
  location : String
  deriving DecidableEq, Repr

/-- The frame that an element describes. -/
def EngineFrame.ofElement (element : Element) : EngineFrame :=
  { level := (element.word? "level").getD 0
    kind := (element.attr? "type").getD "file"
    fileUri := element.attr "filename"
    line := (element.word? "lineno").getD 0
    location := element.attr "where" }

/-- A group of variables, such as those of a function. -/
structure VariableContext where
  /-- Name of the group. -/
  name : String
  /-- The engine's number for it. -/
  id : Nat
  deriving DecidableEq, Repr

/-- A variable, or a member of an object. -/
structure Property where
  /-- Name. -/
  name : String
  /-- Expression for the property in its context. -/
  fullName : String
  /-- Type. -/
  kind : String
  /-- Class of an object. -/
  className : Option String
  /-- Further marks. -/
  facet : String
  /-- Size of the value. -/
  size : Option Nat
  /-- Number of the page of children at hand. -/
  page : Nat
  /-- Number of children on a page. -/
  pageSize : Nat
  /-- Whether there are children. -/
  hasChildren : Bool
  /-- Number of children. -/
  childCount : Nat
  /-- Value; an object has none. -/
  value : Option String
  /-- The children at hand. -/
  children : List Property

namespace Property

/-- The value of the property that an element describes: none if there is neither text nor an
encoding. -/
def valueOf (element : Element) : Except ProtocolError (Option String) :=
  if element.text.isEmpty && (element.attr? "encoding").isNone then .ok none
  else (decodeText element.text ((element.attr? "encoding").getD "none")).map some

/-- The property that an element describes, its children being known. -/
def assemble (element : Element) (children : List Property) (value : Option String) : Property :=
  let name := element.attr "name"
  { name
    fullName := (element.attr? "fullname").getD name
    kind := (element.attr? "type").getD "undefined"
    className := (element.attr? "classname").filter fun text => !text.isEmpty
    facet := element.attr "facet"
    size := (element.attr? "size").bind fun text => Text.bounded? Text.maxLong text.toList
    page := (element.word? "page").getD 0
    pageSize := (element.word? "pagesize").getD 0
    hasChildren := element.flag "children"
    childCount := (element.word? "numchildren").getD 0
    value
    children }

mutual

/-- The property that an element describes, with those in its children that are named so. -/
def ofElement : Element → Except ProtocolError Property
  | ⟨name, attributes, elements, text⟩ => do
    let children ← ofElements elements
    let element : Element := ⟨name, attributes, elements, text⟩
    return assemble element children (← valueOf element)

/-- The properties among some elements, in order. -/
def ofElements : List Element → Except ProtocolError (List Property)
  | [] => .ok []
  | element :: rest =>
    if element.name == "property" then do
      let property ← ofElement element
      return property :: (← ofElements rest)
    else ofElements rest

end

/-- The text that shows a property: its value, or the class of an object with the number of its
children. -/
def displayValue (property : Property) : String :=
  match property.value, property.className with
  | some value, some className =>
    if property.hasChildren then className ++ " (" ++ toString property.childCount ++ ")" else value
  | some value, none => value
  | none, some className => className ++ " (" ++ toString property.childCount ++ ")"
  | none, none => property.kind

end Property

/-- The answer to a command. -/
structure Response where
  /-- Name of the command. -/
  command : String
  /-- Transaction id of the command. -/
  id : Nat
  /-- The error, if the command failed. -/
  error : Option EngineError
  /-- The whole answer. -/
  element : Element

namespace Response

/-- The error that an element describes. -/
def errorOf (command : String) (element : Element) : EngineError :=
  { command
    code := (element.word? "code").getD 999
    text := ((element.child? "message").map fun child => Text.trimmed child.text).getD "" }

/-- The answer that an element describes. -/
def ofElement (element : Element) : Except ProtocolError Response := do
  let missing := ProtocolError.missingAttribute
  let some text := element.attr? "transaction_id" | .error (missing element.name "transaction_id")
  let some id := Text.bounded? Text.maxWord (Text.trim text.toList)
    | .error (missing "response" "transaction_id")
  let command := element.attr "command"
  return { command, id, element, error := (element.child? "error").map (errorOf command) }

/-- The state in the answer to a continuation. -/
def status? (response : Response) : Option RunState := do
  (RunState.parse (← response.element.attr? "status")).toOption

/-- The reason in the answer to a continuation. -/
def reason? (response : Response) : Option StatusReason := do
  (StatusReason.parse (← response.element.attr? "reason")).toOption

/-- Whether the answer says that the command succeeded. -/
def success (response : Response) : Bool := response.element.flag "success"

/-- The id of a new breakpoint. -/
def breakpointId? (response : Response) : Option Nat := response.element.word? "id"

/-- Breakpoints in the answer. -/
def breakpoints (response : Response) : List EngineBreakpoint :=
  (response.element.childrenNamed "breakpoint").map .ofElement

/-- Frames in the answer, the innermost first. -/
def frames (response : Response) : List EngineFrame :=
  ((response.element.childrenNamed "stack").map EngineFrame.ofElement).mergeSort fun a b =>
    a.level ≤ b.level

/-- Groups of variables in the answer. -/
def contexts (response : Response) : List VariableContext :=
  (response.element.childrenNamed "context").map fun element =>
    { name := element.attr "name", id := (element.word? "id").getD 0 }

/-- Properties in the answer. -/
def properties (response : Response) : Except ProtocolError (List Property) :=
  Property.ofElements response.element.children

/-- The value of a feature, if the engine supports it. -/
def featureValue? (response : Response) : Option String :=
  if response.element.flag "supported" then
    (decodeText (Text.trimmed response.element.text)
      ((response.element.attr? "encoding").getD "none")).toOption
  else none

end Response
end DebugBridge
