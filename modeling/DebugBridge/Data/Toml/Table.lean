import DebugBridge.Data.Value

/-!
Tables under construction.  A table remembers how it came to be, because that decides what may
still be added to it: a table with a header of its own gets no second header and no dotted keys
from elsewhere, and a key is never given twice.
-/

namespace DebugBridge
namespace Toml

/-- How a table came to be. -/
inductive Origin where
  /-- It has a header, or is the whole document or an inline table. -/
  | headed
  /-- A header of a table inside it was read. -/
  | implied
  /-- A dotted key passed through it. -/
  | dotted
  deriving DecidableEq, Repr

/-- What a key stands for. -/
inductive Item where
  /-- A value. -/
  | value (value : Value)
  /-- A table. -/
  | table (origin : Origin) (members : List (String × Item))
  /-- A list of tables, each of which has a header. -/
  | tables (elements : List (List (String × Item)))

/-- The keys of a table with what they stand for. -/
abbrev Entries := List (String × Item)

/-- What a key stands for in a table. -/
def lookup (key : String) (entries : Entries) : Option Item :=
  (entries.find? fun entry => entry.1 == key).map Prod.snd

/-- The table with a key that stands for something else. -/
def replace (key : String) (item : Item) (entries : Entries) : Entries :=
  entries.map fun entry => if entry.1 == key then (key, item) else entry

/-- Changes the table that a path of keys leads to, making those that are missing.  In a list of
tables the last one is meant. -/
def modify (viaDots : Bool) (change : Origin → Entries → Option Entries) (origin : Origin)
    (entries : Entries) : List String → Option Entries
  | [] => change origin entries
  | key :: path =>
    match lookup key entries with
    | none => do
      let origin := if viaDots then .dotted else .implied
      let members ← modify viaDots change origin [] path
      return entries ++ [(key, .table origin members)]
    | some (.value _) => none
    | some (.table origin members) =>
      if viaDots && origin == .headed then none
      else do
        let members ← modify viaDots change origin members path
        return replace key (.table origin members) entries
    | some (.tables elements) => do
      let members ← modify viaDots change .headed (elements.getLast?.getD []) path
      return replace key (.tables (elements.dropLast ++ [members])) entries

/-- Gives a new key a value.  A key with dots only adds to tables made by dots, one without dots
only to other tables. -/
def addValue (isDotted : Bool) (key : String) (value : Value) (origin : Origin)
    (entries : Entries) :
    Option Entries :=
  if (origin == .dotted) != isDotted || (lookup key entries).isSome then none
  else some (entries ++ [(key, .value value)])

/-- Gives a path of keys, which ends with `key`, a value. -/
def assign (path : List String) (key : String) (value : Value) (origin : Origin)
    (entries : Entries) : Option Entries :=
  modify true (addValue (!path.isEmpty) key value) origin entries path

/-- Gives a table a header. -/
def addTable (key : String) (_origin : Origin) (entries : Entries) : Option Entries :=
  match lookup key entries with
  | none => some (entries ++ [(key, .table .headed [])])
  | some (.table .implied members) => some (replace key (.table .headed members) entries)
  | some _ => none

/-- Gives a list of tables one more element. -/
def addElement (key : String) (_origin : Origin) (entries : Entries) : Option Entries :=
  match lookup key entries with
  | none => some (entries ++ [(key, .tables [[]])])
  | some (.tables elements) => some (replace key (.tables (elements ++ [[]])) entries)
  | some _ => none

mutual

/-- What an item means. -/
def Item.toValue : Item → Value
  | .value value => value
  | .table _ members => .record (entriesToValues members)
  | .tables elements => .list (elementsToValues elements)

/-- What the items of a table mean. -/
def entriesToValues : Entries → List (String × Value)
  | [] => []
  | (key, item) :: rest => (key, item.toValue) :: entriesToValues rest

/-- What a list of tables means. -/
def elementsToValues : List Entries → List Value
  | [] => []
  | members :: rest => .record (entriesToValues members) :: elementsToValues rest

end

end Toml
end DebugBridge
