import DebugBridge.Text.Number

/-!
Structured data, as documents and messages carry it, and the reading of records from it.

A record is read member by member: a member is required, optional (absent and null mean the same),
or has a default.  Members that nobody asks for do not matter.  A list may stand for a record, its
elements being the members in their order.  Formats differ in what accompanies the name of a choice
without further data, and in whether such a list may be too long.
-/

namespace DebugBridge

/-- Structured data. -/
inductive Value where
  /-- Nothing. -/
  | null
  /-- A truth value. -/
  | boolean (value : Bool)
  /-- An integer. -/
  | integer (value : Int)
  /-- A number that is not an integer; no record has a member of that kind, so it is not kept. -/
  | fraction
  /-- A text. -/
  | text (value : String)
  /-- A date or a time, or both. -/
  | moment (written : String)
  /-- A list. -/
  | list (items : List Value)
  /-- A record, its names being different. -/
  | record (members : List (String × Value))
  deriving Inhabited

/-- The members of a record that is being read. -/
structure Members where
  /-- Names and values. -/
  entries : List (String × Value)

/-- The format of the document that data comes from. -/
inductive DataFormat where
  /-- JSON, where a list that stands for a record has no elements beyond its members. -/
  | json
  /-- TOML, which has no null, and where elements beyond the members do not matter. -/
  | toml
  deriving DecidableEq, Repr

/-- Whether a list of some length may stand for a record whose members are given in order, each
with whether it may be missing at the end. -/
def DataFormat.fits (format : DataFormat) (layout : List (String × Bool)) (length : Nat) : Bool :=
  (format == .toml || length ≤ layout.length) && (layout.drop length).all Prod.snd

namespace Value

/-- A natural number as data. -/
def natural (value : Nat) : Value := .integer value

/-- Some texts as data. -/
def texts (items : List String) : Value := .list (items.map .text)

/-- Something optional as data. -/
def ofOption (write : α → Value) : Option α → Value
  | some value => write value
  | none => .null

/-- The truth value that data holds. -/
def boolean? : Value → Option Bool
  | .boolean value => some value
  | _ => none

/-- The text that data holds. -/
def text? : Value → Option String
  | .text value => some value
  | _ => none

/-- The natural number up to a limit that data holds. -/
def natural? (limit : Nat) : Value → Option Nat
  | .integer value => if 0 ≤ value && value.toNat ≤ limit then some value.toNat else none
  | _ => none

/-- The unsigned 32-bit number that data holds. -/
def word? (value : Value) : Option Nat := value.natural? Text.maxWord

/-- The signed 64-bit number that data holds. -/
def long? : Value → Option Int
  | .integer value =>
    if -(Text.maxSigned + 1 : Int) ≤ value && value ≤ Text.maxSigned then some value else none
  | _ => none

/-- The list that data holds, every element being read. -/
def listOf? (read : Value → Option α) : Value → Option (List α)
  | .list items => items.mapM read
  | _ => none

/-- Whether data says nothing more about a choice: it is null where there is null, else empty. -/
def isBare : DataFormat → Value → Bool
  | .json, .null => true
  | .toml, .list [] => true
  | .toml, .record [] => true
  | _, _ => false

/-- The name of a choice without further data: a text, or the only member of a record. -/
def choice? (format : DataFormat) : Value → Option String
  | .text name => some name
  | .record [(name, content)] => if content.isBare format then some name else none
  | _ => none

/-- The name of the only member of a record that stands for a moment. -/
def momentName : String := "$__toml_private_datetime"

/-- The members of a record whose names are given in order, each with whether it may be missing
at the end of a list. -/
def members? (format : DataFormat) (layout : List (String × Bool)) : Value → Option Members
  | .record entries => some ⟨entries⟩
  | .moment written => some ⟨[(momentName, .text written)]⟩
  | .list items =>
    if format.fits layout items.length then some ⟨(layout.map Prod.fst).zip items⟩ else none
  | _ => none

/-- A record of texts. -/
def textRecord? : Value → Option (List (String × String))
  | .record entries => entries.mapM fun (name, value) => value.text?.map (name, ·)
  | .moment written => some [(momentName, written)]
  | _ => none

end Value

namespace Members

/-- The value of a member. -/
def get? (members : Members) (name : String) : Option Value :=
  (members.entries.find? fun entry => entry.1 == name).map Prod.snd

/-- A member that has to be there. -/
def required (members : Members) (name : String) (read : Value → Option α) : Option α :=
  (members.get? name).bind read

/-- A member that may be absent or null. -/
def optional (members : Members) (name : String) (read : Value → Option α) : Option (Option α) :=
  match members.get? name with
  | none | some .null => some none
  | some value => (read value).map some

/-- A member that stands for a default where it is absent. -/
def defaulted (members : Members) (name : String) (read : Value → Option α) (default : α) :
    Option α :=
  match members.get? name with
  | none => some default
  | some value => read value

end Members
end DebugBridge
