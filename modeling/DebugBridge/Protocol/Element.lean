import DebugBridge.Text.Blank
import DebugBridge.Text.Number

/-!
Elements of a packet: a name, attributes in order, child elements in order, and the text that
stands directly in the element.
-/

namespace DebugBridge

/-- An element. -/
structure Element where
  /-- Name, with a namespace in front if it has one. -/
  name : String
  /-- Attributes with their values, in order. -/
  attributes : List (String × String)
  /-- Child elements in order. -/
  children : List Element
  /-- Text of the element itself. -/
  text : String

namespace Element

/-- The value of the first attribute with a name. -/
def attr? (element : Element) (name : String) : Option String :=
  (element.attributes.find? fun entry => entry.1 == name).map Prod.snd

/-- The value of an attribute, empty if it is missing. -/
def attr (element : Element) (name : String) : String := (element.attr? name).getD ""

/-- The value of an attribute as an unsigned 32-bit number, blanks around it aside. -/
def word? (element : Element) (name : String) : Option Nat := do
  Text.bounded? Text.maxWord (Text.trim (← element.attr? name).toList)

/-- The value of an attribute as a signed 64-bit number, blanks around it aside. -/
def long? (element : Element) (name : String) : Option Int := do
  Text.boundedInt? Text.maxSigned (Text.trim (← element.attr? name).toList)

/-- Whether an attribute is set. -/
def flag (element : Element) (name : String) : Bool :=
  element.attr? name == some "1" || element.attr? name == some "true"

/-- The children with a name. -/
def childrenNamed (element : Element) (name : String) : List Element :=
  element.children.filter fun child => child.name == name

/-- The first child with a name. -/
def child? (element : Element) (name : String) : Option Element :=
  element.children.find? fun child => child.name == name

end Element
end DebugBridge
