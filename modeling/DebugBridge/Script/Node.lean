import DebugBridge.Text.Blank
import DebugBridge.Text.Case

/-!
The structure of a script: directives, classes, functions and properties as a tree.  A node knows
where it stands in its file and the names of what encloses it.
-/

namespace DebugBridge

/-- A line and a column in bytes, both counted from one. -/
structure Position where
  /-- Line number. -/
  line : Nat
  /-- Byte column. -/
  column : Nat
  deriving DecidableEq, Repr, Inhabited

/-- A stretch of a file. -/
structure Location where
  /-- Path of the file. -/
  file : String
  /-- Offset of the first byte. -/
  start : Nat
  /-- Offset just past the last byte. -/
  stop : Nat
  /-- Position of the first byte. -/
  first : Position
  /-- Position of the last byte. -/
  last : Position
  /-- The text of the stretch. -/
  text : String
  deriving DecidableEq, Repr

/-- Whether a line is among those that a stretch covers. -/
def Location.covers (location : Location) (line : Nat) : Bool :=
  location.first.line ≤ line && line ≤ location.last.line

/-- The argument of an include directive. -/
structure Directive where
  /-- What to include. -/
  target : String
  /-- Whether a missing file is no error. -/
  ignoreFailure : Bool
  deriving DecidableEq, Repr

/-- What a node is. -/
inductive Kind where
  /-- A region that is never executed: a block comment or another directive. -/
  | skip
  /-- An include directive with the path that it resolved to. -/
  | inclusion (directive : Directive) (again : Bool) (resolved : Option String)
  /-- A class with the line of its opening brace. -/
  | classDef (name : String) (base : Option String) (braceLine : Nat)
  /-- A function, method or accessor; without an opening brace its body is one expression. -/
  | function (name : String) (isStatic : Bool) (params : String) (braceLine : Option Nat)
  /-- A property; its accessors are the nested functions. -/
  | property (name : String) (isStatic : Bool) (params : Option String) (braceLine : Option Nat)
  deriving DecidableEq, Repr

/-- A node of the tree. -/
inductive Node where
  /-- A node from its kind, the names around it, its place and what is nested in it. -/
  | mk (kind : Kind) (scope : List String) (location : Location) (nested : List Node)

/-- The declared name, if there is one. -/
def Kind.name? : Kind → Option String
  | .classDef name _ _ | .function name _ _ _ | .property name _ _ _ => some name
  | .skip | .inclusion _ _ _ => none

/-- Whether a kind is a property. -/
def Kind.isProperty : Kind → Bool
  | .property _ _ _ _ => true
  | _ => false

/-- Whether a kind is a class. -/
def Kind.isClass : Kind → Bool
  | .classDef _ _ _ => true
  | _ => false

namespace Node

/-- What the node is. -/
def kind : Node → Kind
  | .mk kind _ _ _ => kind

/-- Names of the enclosing declarations, outermost first. -/
def scope : Node → List String
  | .mk _ scope _ _ => scope

/-- Where the node stands. -/
def location : Node → Location
  | .mk _ _ location _ => location

/-- What is nested in the node; for a property, its accessors in document order. -/
def nested : Node → List Node
  | .mk _ _ _ nested => nested

/-- The declared name, if there is one. -/
def name? (node : Node) : Option String := node.kind.name?

/-- The declared name with the names around it, separated by dots. -/
def qualifiedName? (node : Node) : Option String :=
  node.name?.map fun name => ".".intercalate (node.scope ++ [name])

/-- The getter of a property; of several the last one counts. -/
def getter? (node : Node) : Option Node :=
  if node.kind.isProperty then
    (node.nested.filter fun accessor => accessor.name? == some "get").getLast?
  else none

/-- The setter of a property; of several the last one counts. -/
def setter? (node : Node) : Option Node :=
  if node.kind.isProperty then
    (node.nested.filter fun accessor => accessor.name? != some "get").getLast?
  else none

/-- The accessors that count: of the getters the last one, then of the setters the last one. -/
def accessors (node : Node) : List Node :=
  (node.getter?).toList ++ (node.setter?).toList

/-- The line on which a function ends. -/
def returnLine (node : Node) : Nat := node.location.last.line

mutual

/-- A node and everything below it, a node before what is nested in it; the inside of a property
is not entered. -/
def flatten : Node → List Node
  | .mk kind scope location nested =>
    .mk kind scope location nested :: (if kind.isProperty then [] else flattenAll nested)

/-- The nodes of a list, each with what is below it. -/
def flattenAll : List Node → List Node
  | [] => []
  | node :: rest => flatten node ++ flattenAll rest

end

/-- Whether a node is a function with a bare or dotted name, ASCII case aside. -/
def isFunctionNamed (wanted : String) (node : Node) : Bool :=
  match node.kind with
  | .function name _ _ _ =>
    if wanted.toList.contains '.' then
      node.qualifiedName?.any fun qualified => Text.equalIgnoringCase qualified wanted
    else Text.equalIgnoringCase name wanted
  | _ => false

/-- The first function with a bare or dotted name. -/
def findFunction? (nodes : List Node) (name : String) : Option Node :=
  (flattenAll nodes).find? (isFunctionNamed (Text.trimmed name))

end Node
end DebugBridge
