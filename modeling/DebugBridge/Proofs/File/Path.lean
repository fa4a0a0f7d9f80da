import DebugBridge.File.Path

/-!
# The order of paths

Paths are compared component by component.  Components are compared by their kind, and names of
components by their text, so the order is total, and paths that are equal in it have the same place
among all others.
-/

namespace DebugBridge
namespace Path

open Std

/-- The text of a component that is a name. -/
def Component.text : Component → List Char
  | .name text => text
  | _ => []

/-- A comparison of something about things is one of the things. -/
theorem transCmp_on (compare : β → β → Ordering) [TransCmp compare] (key : α → β) :
    TransCmp fun a b => compare (key a) (key b) where
  eq_swap := OrientedCmp.eq_swap
  isLE_trans := TransCmp.isLE_trans

theorem transCmp_text : TransCmp fun a b : Component => compareOfLessAndEq a.text b.text :=
  have : TransCmp fun a b : List Char => compareOfLessAndEq a b :=
    TransOrd.compareOfLessAndEq_of_lt_trans_of_lt_iff List.lt_trans fun a b => by
      constructor
      · exact fun lt => ⟨List.lt_asymm lt, fun same => List.lt_irrefl b (same ▸ lt)⟩
      · exact fun ⟨notAfter, other⟩ =>
          Decidable.not_not.1 fun notBefore => other (List.le_antisymm notAfter notBefore)
  transCmp_on (fun a b => compareOfLessAndEq a b) Component.text

instance : TransCmp compareComponents := by
  have kinds : compareComponents = compareLex (compareOn compareComponents.rank)
      fun a b => compareOfLessAndEq a.text b.text := by
    funext a b
    cases a <;> cases b <;> rfl
  have := transCmp_text
  rw [kinds]
  infer_instance

theorem compareAll_eq_compareLex : compareAll = List.compareLex compareComponents := by
  funext a b
  induction a generalizing b with
  | nil => cases b <;> rfl
  | cons x a ih =>
      cases b with
      | nil => rfl
      | cons y b => rw [compareAll, List.compareLex_cons_cons, ih]

instance : TransCmp order := by
  have : TransCmp compareAll := by
    rw [compareAll_eq_compareLex]
    infer_instance
  exact transCmp_on compareAll components

end Path
end DebugBridge
