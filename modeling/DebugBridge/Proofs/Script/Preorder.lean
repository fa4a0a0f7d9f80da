import DebugBridge.Proofs.Data.Forest
import DebugBridge.Proofs.Script.Tree

/-!
# The nodes of a program in order

A program is a forest: a declaration has in it what stands in its body, an include has in it the nodes
of its file, and a property has in it what stands in the bodies of its accessors.  Flattening lists the
forest in pre-order, and the function that is found for a name is the first one of that name, as long
as nothing stands in an accessor; what does is passed over.
-/

namespace DebugBridge
namespace Node

/-! ## What is nested -/

/-- What is nested in a node, in document order; in a property, what stands in the bodies of the
accessors that count. -/
def innerNodes (node : Node) : List Node :=
  if node.kind.isProperty then
    (node.accessors.mergeSort fun accessor other =>
      accessor.location.start ≤ other.location.start).flatMap nested
  else node.nested

/-- What a walk comes to from a node. -/
def entered (node : Node) : List Node := if node.kind.isProperty then [] else node.nested

mutual

/-- Whether nothing stands in the accessors in a node. -/
def shallow : Node → Bool
  | .mk kind scope location nested =>
    if kind.isProperty then
      (accessors (.mk kind scope location nested)).all fun accessor => accessor.nested.isEmpty
    else shallowAll nested

/-- Whether nothing stands in the accessors in some nodes. -/
def shallowAll : List Node → Bool
  | [] => true
  | node :: rest => shallow node && shallowAll rest

end

section Nested

variable {kind : Kind} {scope : List String} {location : Location} {nested : List Node}

theorem entered_of_property (isProperty : kind.isProperty = true) :
    entered (.mk kind scope location nested) = [] := if_pos isProperty

theorem entered_of_other (other : kind.isProperty = false) :
    entered (.mk kind scope location nested) = nested := if_neg (Bool.eq_false_iff.1 other)

theorem innerNodes_of_other (other : kind.isProperty = false) :
    innerNodes (.mk kind scope location nested) = nested := if_neg (Bool.eq_false_iff.1 other)

theorem innerNodes_of_empty (isProperty : kind.isProperty = true)
    (empty : ∀ accessor ∈ accessors (.mk kind scope location nested), accessor.nested = []) :
    innerNodes (.mk kind scope location nested) = [] := by
  rw [innerNodes, if_pos (show (Node.kind (.mk kind scope location nested)).isProperty = true from
    isProperty), List.flatMap_eq_nil_iff]
  exact fun accessor member => empty accessor (List.mem_mergeSort.1 member)

theorem flattenAll_cons (node : Node) (rest : List Node) :
    flattenAll (node :: rest) = node :: (flattenAll node.entered ++ flattenAll rest) := by
  obtain ⟨kind, scope, location, nested⟩ := node
  rw [flattenAll, flatten, List.cons_append]
  cases same : kind.isProperty with
  | true => rw [entered_of_property same, if_pos rfl, flattenAll]
  | false =>
      rw [entered_of_other same, if_neg Bool.false_ne_true]

end Nested

/-! ## The pre-order -/

variable {nodes : List Node}

/-- The walk with a stack ends, and it gives the flattened forest. -/
theorem unstacks_flattenAll (nodes : List Node) :
    Forest.Unstacks entered (Forest.push nodes []) (flattenAll nodes) := by
  -- What is on the stack below the forest waits until the forest is given out.
  suffices waits : ∀ stack given, Forest.Unstacks entered stack given →
      Forest.Unstacks entered (nodes ++ stack) (flattenAll nodes ++ given) by
    simpa [Forest.push_eq_append] using waits [] [] .done
  induction nodes using forest_induction with
  | nil => exact fun stack given rest => by simpa [flattenAll] using rest
  | cons kind scope location nested rest inside later =>
      intro stack given waiting
      have behind := later stack given waiting
      rw [flattenAll_cons, List.cons_append, List.cons_append, List.append_assoc]
      refine .take ?_
      rw [Forest.push_eq_append]
      cases same : kind.isProperty with
      | true =>
          rw [entered_of_property same, flattenAll]
          exact behind
      | false =>
          rw [entered_of_other same]
          exact inside _ _ behind

theorem exists_lists (plain : shallowAll nodes = true) :
    ∃ addresses, Forest.Lists innerNodes nodes addresses (flattenAll nodes) := by
  have nothing : Forest.Lists innerNodes [] [] (flattenAll []) := by
    rw [flattenAll]
    exact Forest.lists_nil innerNodes
  induction nodes using forest_induction with
  | nil => exact ⟨[], nothing⟩
  | cons kind scope location nested rest inside later =>
      rw [shallowAll, Bool.and_eq_true, shallow] at plain
      obtain ⟨here, beyond⟩ := plain
      obtain ⟨laterAddresses, listsLater⟩ := later beyond
      obtain ⟨insideAddresses, listsInside⟩ : ∃ addresses, Forest.Lists innerNodes
          (innerNodes (.mk kind scope location nested)) addresses
          (flattenAll (entered (.mk kind scope location nested))) := by
        cases same : kind.isProperty with
        | true =>
            rw [same, if_pos rfl, List.all_eq_true] at here
            rw [entered_of_property same,
              innerNodes_of_empty same fun accessor member => List.isEmpty_iff.1 (here accessor member)]
            exact ⟨[], nothing⟩
        | false =>
            rw [same, if_neg Bool.false_ne_true] at here
            rw [entered_of_other same, innerNodes_of_other same]
            exact inside here
      rw [flattenAll_cons]
      exact ⟨_, listsInside.cons listsLater⟩

/-- A forest in whose accessors nothing stands is flattened in pre-order: each node of it comes once, a
node before what is nested in it, and siblings in document order; a walk with a stack gives the same.
For a bare or dotted name the first function of the forest that has it is found, and none is found only
if the forest has none. -/
theorem flattenAll_preorder (plain : shallowAll nodes = true) :
    Forest.Unstacks entered (Forest.push nodes []) (flattenAll nodes) ∧
      (∃ addresses, Forest.Lists innerNodes nodes addresses (flattenAll nodes)) ∧
      ∀ name, Forest.First innerNodes nodes (isFunctionNamed (Text.trimmed name))
        (findFunction? nodes name) := by
  obtain ⟨addresses, lists⟩ := exists_lists plain
  exact ⟨unstacks_flattenAll nodes, ⟨addresses, lists⟩, fun name => lists.first _⟩

end Node

namespace IncludeContext

open Node

/-- The nodes of a text that is scanned on its own. -/
def nodesOf? (text : String) : Option (List Node) :=
  (scanSource ⟨.v2, "a.ahk", none, "/", none⟩ ⟨⟨[], []⟩, ⟨[]⟩⟩ "a.ahk" text.toList).toOption.map
    ScannedFile.nodes

/-- A function in a class that has a property is found by its bare name. -/
theorem flattenAll_preorder_method :
    ∃ nodes, nodesOf? "class A \x7b\n  V \x7b\n    get \x7b\n    \x7d\n  \x7d\n  F() \x7b\n  \x7d\n\x7d\n" =
        some nodes ∧
      shallowAll nodes = true ∧ (findFunction? nodes "F").isSome ∧
      Forest.First innerNodes nodes (isFunctionNamed "F") (findFunction? nodes "F") := by
  have looks : (nodesOf?
      "class A \x7b\n  V \x7b\n    get \x7b\n    \x7d\n  \x7d\n  F() \x7b\n  \x7d\n\x7d\n").any fun nodes =>
        shallowAll nodes && (findFunction? nodes "F").isSome := by
    decide +kernel
  obtain ⟨nodes, found, looks⟩ := (Option.any_eq_true _ _).1 looks
  rw [Bool.and_eq_true] at looks
  have trimmed : Text.trimmed "F" = "F" := by decide
  have first := (flattenAll_preorder looks.1).2.2 "F"
  rw [trimmed] at first
  exact ⟨nodes, found, looks.1, looks.2, first⟩

/-- A function that stands in a getter is passed over: it is in the forest, but neither is it listed nor
is it found by its name. -/
theorem passed_over_in_getter :
    ∃ nodes, nodesOf?
        "class A \x7b\n  V \x7b\n    get \x7b\n      F() \x7b\n      \x7d\n    \x7d\n  \x7d\n\x7d\n" =
        some nodes ∧
      (∃ address node, Forest.at? innerNodes nodes address = some node ∧ isFunctionNamed "F" node) ∧
      findFunction? nodes "F" = none ∧
      ∀ addresses, ¬ Forest.Lists innerNodes nodes addresses (flattenAll nodes) := by
  have looks : (nodesOf?
      "class A \x7b\n  V \x7b\n    get \x7b\n      F() \x7b\n      \x7d\n    \x7d\n  \x7d\n\x7d\n").any
        fun nodes => ((Forest.at? innerNodes nodes [0, 0, 0]).any (isFunctionNamed "F")) &&
          (flattenAll nodes).all fun node => !isFunctionNamed "F" node := by
    decide +kernel
  obtain ⟨nodes, found, looks⟩ := (Option.any_eq_true _ _).1 looks
  rw [Bool.and_eq_true, Option.any_eq_true, List.all_eq_true] at looks
  obtain ⟨⟨node, there, named⟩, others⟩ := looks
  have trimmed : Text.trimmed "F" = "F" := by decide
  refine ⟨nodes, found, ⟨_, node, there, named⟩, ?_, fun addresses lists => ?_⟩
  · rw [findFunction?, trimmed, List.find?_eq_none]
    exact fun other member => by simpa using others other member
  · have unnamed := others node (lists.mem_iff.2 ⟨_, there⟩)
    rw [named] at unnamed
    cases unnamed

end IncludeContext
end DebugBridge
