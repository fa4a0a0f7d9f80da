import Mathlib.Data.List.Lex
import Mathlib.Data.Option.Basic

/-!
# Forests and addresses

A forest is a list of trees; what is below each node of them is told by a function.  The first number
of an address counts among the roots, each further one among what is below the node that it has come
to.  In the order of a dictionary the address of a node comes before those of what is below it, and
these come before that of its next sibling: that is the pre-order of the forest.
-/

namespace DebugBridge
namespace Forest

variable {α : Type} {below : α → List α} {node : α} {roots rest nodes inside later : List α}
  {address : List Nat} {addresses insideAddresses laterAddresses : List (List Nat)}

/-- The node at an address; the empty one leads to none. -/
def at? (below : α → List α) : (roots : List α) → (address : List Nat) → Option α
  | _, [] => none
  | roots, [place] => roots[place]?
  | roots, place :: next :: rest =>
    (roots[place]?).bind fun node => at? below (below node) (next :: rest)

@[simp]
theorem at?_empty (roots : List α) : at? below roots [] = none := by
  cases roots <;> rfl

@[simp]
theorem at?_nil (address : List Nat) : at? below [] address = none := by
  match address with
  | [] => rfl
  | [place] => rfl
  | place :: next :: rest => rfl

@[simp]
theorem at?_root (node : α) (rest : List α) : at? below (node :: rest) [0] = some node := rfl

theorem at?_below (node : α) (rest : List α) (inside : address ≠ []) :
    at? below (node :: rest) (0 :: address) = at? below (below node) address := by
  cases address with
  | nil => exact absurd rfl inside
  | cons next rest => rfl

/-- The address of the next sibling, or of what is below it. -/
def advance : List Nat → List Nat
  | [] => []
  | place :: rest => (place + 1) :: rest

@[simp]
theorem at?_advance (node : α) (rest : List α) (address : List Nat) :
    at? below (node :: rest) (advance address) = at? below rest address := by
  match address with
  | [] => rw [advance, at?_empty, at?_empty]
  | [place] => rfl
  | place :: next :: address => rfl

theorem ne_nil_of_at? (there : (at? below roots address).isSome) : address ≠ [] := by
  rintro rfl
  rw [at?_empty] at there
  cases there

/-- An address leads to the first tree, to what is below its root, or to the other trees. -/
theorem address_cases (address : List Nat) :
    address = [] ∨ address = [0] ∨ (∃ deeper, deeper ≠ [] ∧ address = 0 :: deeper) ∨
      ∃ beyond, beyond ≠ [] ∧ address = advance beyond := by
  match address with
  | [] => exact .inl rfl
  | [0] => exact .inr (.inl rfl)
  | 0 :: next :: rest => exact .inr (.inr (.inl ⟨_, List.cons_ne_nil next rest, rfl⟩))
  | (place + 1) :: rest => exact .inr (.inr (.inr ⟨_, List.cons_ne_nil place rest, rfl⟩))

/-! ## Forests of one shape -/

section Corresponds

variable {β : Type} {r : α → β → Prop} {belowOther : β → List β} {other : β} {others : List β}

/-- Two forests have the same addresses, and the nodes at the same address are related. -/
def Corresponds (r : α → β → Prop) (below : α → List α) (belowOther : β → List β) (roots : List α)
    (others : List β) : Prop :=
  ∀ address, Option.Rel r (at? below roots address) (at? belowOther others address)

theorem corresponds_nil : Corresponds r below belowOther [] [] := by
  intro address
  rw [at?_nil, at?_nil]
  exact .none

theorem Corresponds.cons (root : r node other)
    (inside : Corresponds r below belowOther (below node) (belowOther other))
    (later : Corresponds r below belowOther rest others) :
    Corresponds r below belowOther (node :: rest) (other :: others) := by
  intro address
  rcases address_cases address with rfl | rfl | ⟨deeper, place, rfl⟩ | ⟨beyond, -, rfl⟩
  · rw [at?_empty, at?_empty]
    exact .none
  · exact .some root
  · rw [at?_below _ _ place, at?_below _ _ place]
    exact inside deeper
  · rw [at?_advance, at?_advance]
    exact later beyond

theorem Corresponds.exists_at? (same : Corresponds r below belowOther roots others)
    (there : at? below roots address = some node) :
    ∃ other, at? belowOther others address = some other ∧ r node other := by
  have related := same address
  rw [there] at related
  generalize at? belowOther others address = found at related ⊢
  cases related with
  | some holds => exact ⟨_, rfl, holds⟩

end Corresponds

/-! ## The order of addresses -/

theorem cons_lt_advance (place : address ≠ []) (deeper : List Nat) : 0 :: deeper < advance address := by
  cases address with
  | nil => exact absurd rfl place
  | cons first rest => exact List.cons_lt_cons_iff.2 (.inl (Nat.succ_pos first))

theorem advance_lt_advance {first second : List Nat} (place : first ≠ []) (less : first < second) :
    advance first < advance second := by
  cases first with
  | nil => exact absurd rfl place
  | cons place first =>
      cases second with
      | nil => cases less
      | cons other second =>
          rw [List.cons_lt_cons_iff] at less
          exact List.cons_lt_cons_iff.2
            (less.imp Nat.succ_lt_succ (And.imp_left (congrArg Nat.succ)))

theorem advance_inj {first second : List Nat} (same : advance first = advance second) :
    first = second := by
  cases first <;> cases second <;> simp_all [advance]

/-- The addresses of a tree and of the trees after it, the root first, then what is below it. -/
theorem pairwise_addresses (inside : insideAddresses.Pairwise (· < ·))
    (later : laterAddresses.Pairwise (· < ·)) (insidePlace : ∀ address ∈ insideAddresses, address ≠ [])
    (laterPlace : ∀ address ∈ laterAddresses, address ≠ []) :
    ([0] :: (insideAddresses.map (0 :: ·) ++ laterAddresses.map advance)).Pairwise (· < ·) := by
  rw [List.pairwise_cons, List.pairwise_append]
  refine ⟨List.forall_mem_append.2 ⟨?_, ?_⟩, ?_, ?_, ?_⟩
  · rw [List.forall_mem_map]
    intro address member
    obtain ⟨place, rest, rfl⟩ := List.exists_cons_of_ne_nil (insidePlace address member)
    exact List.cons_lt_cons_iff.2 (.inr ⟨rfl, List.nil_lt_cons _ _⟩)
  · rw [List.forall_mem_map]
    exact fun address member => cons_lt_advance (laterPlace address member) []
  · exact List.pairwise_map.2 (inside.imp fun less => List.cons_lt_cons_iff.2 (.inr ⟨rfl, less⟩))
  · exact List.pairwise_map.2 (later.imp_of_mem fun member _ less =>
      advance_lt_advance (laterPlace _ member) less)
  · rw [List.forall_mem_map]
    intro first _
    rw [List.forall_mem_map]
    exact fun second member => cons_lt_advance (laterPlace second member) first

/-! ## The pre-order -/

/-- A list holds the nodes of a forest in pre-order: the nodes at all its addresses, each once, in the
order of the addresses. -/
structure Lists (below : α → List α) (roots : List α) (addresses : List (List Nat))
    (nodes : List α) : Prop where
  /-- The addresses increase. -/
  sorted : addresses.Pairwise (· < ·)
  /-- They are the addresses of the forest. -/
  complete (address : List Nat) : address ∈ addresses ↔ (at? below roots address).isSome
  /-- The nodes are those at the addresses. -/
  places : addresses.map (at? below roots) = nodes.map some

theorem Lists.ne_nil (lists : Lists below roots addresses nodes) (address : List Nat)
    (member : address ∈ addresses) : address ≠ [] :=
  ne_nil_of_at? ((lists.complete address).1 member)

theorem lists_nil (below : α → List α) : Lists below [] [] [] where
  sorted := .nil
  complete address := by simp
  places := rfl

/-- A tree is listed with its root first, then what is below the root, then the other trees. -/
theorem Lists.cons (listsInside : Lists below (below node) insideAddresses inside)
    (listsLater : Lists below rest laterAddresses later) :
    Lists below (node :: rest)
      ([0] :: (insideAddresses.map (0 :: ·) ++ laterAddresses.map advance))
      (node :: (inside ++ later)) where
  sorted := pairwise_addresses listsInside.sorted listsLater.sorted listsInside.ne_nil
    listsLater.ne_nil
  complete address := by
    have apart (beyond deeper : List Nat) : advance beyond ≠ 0 :: deeper := by
      cases beyond <;> rintro ⟨⟩
    rcases address_cases address with rfl | rfl | ⟨deeper, place, rfl⟩ | ⟨beyond, place, rfl⟩
    · have nowhere : [] ∉ laterAddresses.map advance := by
        intro member
        obtain ⟨address, member, same⟩ := List.mem_map.1 member
        obtain ⟨_, _, rfl⟩ := List.exists_cons_of_ne_nil (listsLater.ne_nil address member)
        cases same
      simp [nowhere]
    · simp
    · rw [at?_below _ _ place, ← listsInside.complete]
      simp [place, apart]
    · have moved : advance beyond ∈ laterAddresses.map advance ↔ beyond ∈ laterAddresses := by
        refine ⟨fun member => ?_, List.mem_map_of_mem⟩
        obtain ⟨other, member, same⟩ := List.mem_map.1 member
        exact advance_inj same ▸ member
      rw [at?_advance, ← listsLater.complete, ← moved]
      simp [apart, (apart _ _).symm]
  places := by
    have insideSame : insideAddresses.map (at? below (node :: rest) ∘ (0 :: ·)) =
        insideAddresses.map (at? below (below node)) :=
      List.map_congr_left fun address member => at?_below node rest (listsInside.ne_nil address member)
    have laterSame : at? below (node :: rest) ∘ advance = at? below rest :=
      funext (at?_advance node rest)
    rw [List.map_cons, List.map_append, List.map_map, List.map_map, insideSame, laterSame,
      listsInside.places, listsLater.places, at?_root, List.map_cons, List.map_append]

/-- What is listed is what is at some address. -/
theorem Lists.mem_iff (lists : Lists below roots addresses nodes) :
    node ∈ nodes ↔ ∃ address, at? below roots address = some node := by
  have listed : node ∈ nodes ↔ some node ∈ nodes.map some := by simp
  rw [listed, ← lists.places, List.mem_map]
  refine ⟨fun ⟨address, _, there⟩ => ⟨address, there⟩, fun ⟨address, there⟩ => ?_⟩
  exact ⟨address, (lists.complete address).2 (by rw [there]; rfl), there⟩

/-! ## A walk with a stack -/

/-- A stack, its top in front, onto which nodes are pushed, the last one first. -/
def push (nodes stack : List α) : List α :=
  nodes.reverse.foldl (fun stack node => node :: stack) stack

theorem push_eq_append (nodes stack : List α) : push nodes stack = nodes ++ stack := by
  rw [push, List.foldl_flip_cons_eq_append', List.reverse_reverse]

/-- A walk with a stack: until nothing is left, the node on top is taken and given out, and what is
below it is pushed. -/
inductive Unstacks (below : α → List α) : (stack given : List α) → Prop
  /-- Nothing is left. -/
  | done : Unstacks below [] []
  /-- A node is taken. -/
  | take {node : α} {stack given : List α} (rest : Unstacks below (push (below node) stack) given) :
      Unstacks below (node :: stack) (node :: given)

/-! ## The first node -/

/-- What a search finds in a forest: the node with the least address of those that satisfy a
condition, or nothing if none of the forest does. -/
inductive First (below : α → List α) (roots : List α) (p : α → Bool) : Option α → Prop
  /-- There is one. -/
  | found {address : List Nat} {node : α} (there : at? below roots address = some node)
      (holds : p node = true)
      (least : ∀ earlier < address, ∀ other, at? below roots earlier = some other → p other = false) :
      First below roots p (some node)
  /-- There is none. -/
  | nowhere (fails : ∀ address node, at? below roots address = some node → p node = false) :
      First below roots p none

/-- The first one of a list in pre-order is the one with the least address. -/
theorem Lists.first (lists : Lists below roots addresses nodes) (p : α → Bool) :
    First below roots p (nodes.find? p) := by
  cases search : nodes.find? p with
  | none =>
      refine .nowhere fun address node there => ?_
      rw [List.find?_eq_none] at search
      exact Bool.eq_false_iff.2 (search node (lists.mem_iff.2 ⟨address, there⟩))
  | some node =>
      obtain ⟨holds, before, after, split, others⟩ := List.find?_eq_some_iff_append.1 search
      have places := lists.places
      rw [split, List.map_append, List.map_cons] at places
      obtain ⟨front, back, rfl, atFront, atBack⟩ := List.map_eq_append_iff.1 places
      obtain ⟨address, back, rfl, there, -⟩ := List.map_eq_cons_iff.1 atBack
      refine .found there holds fun earlier less other found => ?_
      have sorted := lists.sorted
      rw [List.pairwise_append, List.pairwise_cons] at sorted
      -- The earlier address cannot stand behind the one of the node.
      rcases List.mem_append.1 ((lists.complete earlier).2 (by rw [found]; rfl)) with inFront | beyond
      · have inBefore : some other ∈ before.map some := by
          rw [← atFront, ← found]
          exact List.mem_map_of_mem inFront
        simpa using others other (by simpa using inBefore)
      · rcases List.mem_cons.1 beyond with rfl | inBack
        · exact absurd less (List.lt_irrefl _)
        · exact absurd (List.lt_trans less (sorted.2.1.1 _ inBack)) (List.lt_irrefl _)

end Forest
end DebugBridge
