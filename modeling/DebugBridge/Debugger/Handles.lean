/-!
Numbers that are handed out for things, counting from one.  They are valid until the table is
reset, when counting starts again.
-/

namespace DebugBridge

/-- Things to which numbers have been handed out, the first one having number one. -/
structure Handles (α : Type) where
  /-- The things, in the order of their numbers. -/
  items : List α

namespace Handles

/-- A table in which nothing has a number. -/
def empty : Handles α := ⟨[]⟩

/-- Hands out the next number. -/
def create (table : Handles α) (item : α) : Int × Handles α :=
  (table.items.length + 1, ⟨table.items ++ [item]⟩)

/-- The thing with a number. -/
def get? (table : Handles α) (handle : Int) : Option α :=
  if 0 < handle then table.items[(handle - 1).toNat]? else none

/-- How many numbers have been handed out. -/
def size (table : Handles α) : Nat := table.items.length

/-- A number that is handed out next leads to what it is handed out for. -/
theorem get?_create (table : Handles α) (item : α) :
    (table.create item).2.get? (table.create item).1 = some item := by
  have positive : (0 : Int) < table.items.length + 1 := by omega
  show (if (0 : Int) < table.items.length + 1 then
      (table.items ++ [item])[((table.items.length : Int) + 1 - 1).toNat]? else none) = some item
  rw [if_pos positive]
  simp

end Handles
end DebugBridge
