import DebugBridge.Data.Value
import DebugBridge.Script.Node

/-!
The structure of a script as data, for those who want to look at it.
-/

namespace DebugBridge

/-- A position as data. -/
def Position.toValue (position : Position) : Value :=
  .list [.natural position.line, .natural position.column]

/-- A stretch as data, with its text if that is wanted. -/
def Location.toValue (withText : Bool) (location : Location) : Value :=
  .record ([("file", .text location.file),
    ("range", .list [.natural location.start, .natural location.stop]),
    ("start", location.first.toValue), ("end", location.last.toValue)] ++
    if withText then [("raw", .text location.text)] else [])

namespace Kind

/-- The name of what a node is. -/
def typeName : Kind → String
  | .skip => "skip"
  | .inclusion _ _ _ => "include"
  | .classDef _ _ _ => "class"
  | .function _ _ _ _ => "function"
  | .property _ _ _ _ => "property"

/-- What a kind says of itself. -/
def members : Kind → List (String × Value)
  | .skip => []
  | .inclusion directive again resolved =>
    [("target", .text directive.target), ("ignore_failure", .boolean directive.ignoreFailure),
      ("again", .boolean again), ("resolved", .ofOption .text resolved)]
  | .classDef name base braceLine =>
    [("name", .text name), ("extends", .ofOption .text base), ("brace_line", .natural braceLine)]
  | .function name isStatic params braceLine =>
    [("name", .text name), ("static", .boolean isStatic), ("params", .text params),
      ("brace_line", .ofOption .natural braceLine)]
  | .property name isStatic params braceLine =>
    [("name", .text name), ("static", .boolean isStatic), ("params", .ofOption .text params),
      ("brace_line", .ofOption .natural braceLine)]

end Kind

namespace Node

/-- The last of the accessors whose names satisfy a condition. -/
def lastAccessor (accessors : List (Node × Value)) (p : Option String → Bool) : Value :=
  .ofOption Prod.snd (accessors.filter fun accessor => p accessor.1.name?).getLast?

mutual

/-- A node with everything below it as data, texts included if they are wanted. -/
def toValue (withText : Bool) : Node → Value
  | .mk kind scope location nested =>
    let inside := toValues withText nested
    let below := match kind with
      | .skip => []
      | .inclusion _ _ _ => [("nodes", .list inside)]
      | .classDef _ _ _ => [("children", .list inside)]
      | .function _ _ _ _ =>
        [("return_line", .natural location.last.line), ("children", .list inside)]
      | .property _ _ _ _ =>
        [("getter", lastAccessor (nested.zip inside) (· == some "get")),
          ("setter", lastAccessor (nested.zip inside) (· != some "get"))]
    .record ([("type", .text kind.typeName)] ++ kind.members ++ below ++
      [("loc", location.toValue withText), ("scope", .texts scope)])

/-- Nodes as data. -/
def toValues (withText : Bool) : List Node → List Value
  | [] => []
  | node :: rest => toValue withText node :: toValues withText rest

end

end Node
end DebugBridge
