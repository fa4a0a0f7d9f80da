import DebugBridge.Script.Program

/-!
# Resolved includes

Resolving the includes in a node changes nothing else in it.  What an include becomes is told by
four cases, one for each thing that its target may name, and the nodes of a list are resolved one
after the other.
-/

namespace DebugBridge

/-! ## Forests -/

/-- Whether a kind is an include directive. -/
def Kind.isInclusion : Kind → Bool
  | .inclusion _ _ _ => true
  | _ => false

theorem Kind.isInclusion_iff {kind : Kind} : kind.isInclusion = true ↔
    ∃ directive again resolved, kind = .inclusion directive again resolved := by
  cases kind with
  | inclusion directive again resolved => simp [Kind.isInclusion]
  | skip | classDef | function | property => simp [Kind.isInclusion]

namespace Node

/-- What holds of a forest if it holds of what is nested in its first tree, and of the others. -/
@[elab_as_elim]
theorem forest_induction {motive : List Node → Prop} (nil : motive [])
    (cons : ∀ kind scope location nested rest, motive nested → motive rest →
      motive (.mk kind scope location nested :: rest)) : ∀ nodes, motive nodes
  | [] => nil
  | .mk kind scope location nested :: rest =>
      cons kind scope location nested rest (forest_induction nil cons nested)
        (forest_induction nil cons rest)

theorem link_eq_map (follower : Follower) {kind : Kind}
    (other : ∀ directive again resolved, kind ≠ .inclusion directive again resolved)
    (scope : List String) (location : Location) (nested : List Node) (inClass : Bool)
    (walk : Walk) : link follower inClass walk (.mk kind scope location nested) =
      (linkAll follower kind.isClass walk nested).map fun found =>
        (.mk kind scope location found.1, found.2) := by
  cases kind with
  | inclusion directive again resolved => exact absurd rfl (other directive again resolved)
  | skip | classDef | function | property =>
      rw [link]
      · cases linkAll follower _ walk nested <;> rfl
      · rintro _ _ _ ⟨⟩

end Node

namespace Follower

variable {follower : Follower} {inClass : Bool} {walk last : Walk} {nodes linked : List Node}

/-- What becomes of a node when the includes in it are resolved. -/
inductive Links (follower : Follower) (inClass : Bool) (walk : Walk) : Node → Node → Walk → Prop
  /-- An include that names nothing. -/
  | unresolved {directive : Directive} {again : Bool} {resolved : Option String}
      {scope : List String} {location : Location} {nested : List Node}
      (fails : follower.resolve? walk.base directive.target = none) :
      Links follower inClass walk (.mk (.inclusion directive again resolved) scope location nested)
        (.mk (.inclusion directive again none) scope location []) walk
  /-- An include that names a directory. -/
  | directory {directive : Directive} {again : Bool} {resolved : Option String}
      {scope : List String} {location : Location} {nested : List Node} {path : String}
      (names : follower.resolve? walk.base directive.target = some path)
      (directory : follower.isDirectory path = true) :
      Links follower inClass walk (.mk (.inclusion directive again resolved) scope location nested)
        (.mk (.inclusion directive again (some path)) scope location []) { walk with base := path }
  /-- An include that names a file. -/
  | file {directive : Directive} {again : Bool} {resolved : Option String}
      {scope : List String} {location : Location} {nested nodes : List Node} {path : String}
      {visited : List String}
      (names : follower.resolve? walk.base directive.target = some path)
      (file : follower.isDirectory path = false)
      (enters : follower.enter walk.visited path scope inClass = some (nodes, visited)) :
      Links follower inClass walk (.mk (.inclusion directive again resolved) scope location nested)
        (.mk (.inclusion directive again (some path)) scope location nodes) { walk with visited }
  /-- A node that is no include. -/
  | other {kind : Kind} {scope : List String} {location : Location} {nested inner : List Node}
      {last : Walk} (other : kind.isInclusion = false)
      (inside : Node.linkAll follower kind.isClass walk nested = some (inner, last)) :
      Links follower inClass walk (.mk kind scope location nested) (.mk kind scope location inner)
        last

theorem link_eq_some_iff {node linked : Node} :
    node.link follower inClass walk = some (linked, last) ↔
      follower.Links inClass walk node linked last := by
  obtain ⟨kind, scope, location, nested⟩ := node
  by_cases inclusion : kind.isInclusion = true
  · obtain ⟨directive, again, resolved, rfl⟩ := Kind.isInclusion_iff.1 inclusion
    rw [Node.link]
    constructor
    · intro found
      dsimp only at found
      split at found
      · next fails =>
        cases found
        exact .unresolved fails
      · next path names =>
        split at found
        · next directory =>
          cases found
          exact .directory names directory
        · next file =>
          simp only [Option.pure_def, Option.bind_eq_bind, Option.bind_eq_some_iff,
            Option.some.injEq, Prod.mk.injEq, Prod.exists] at found
          obtain ⟨nodes, visited, enters, rfl, rfl⟩ := found
          exact .file names (Bool.eq_false_iff.2 file) enters
    · intro links
      cases links with
      | unresolved fails => simp [fails]
      | directory names directory => simp [names, directory]
      | file names file enters => simp [names, file, enters]
      | other other inside => cases other
  · have other : kind.isInclusion = false := Bool.eq_false_iff.2 inclusion
    have apart (directive : Directive) (again : Bool) (resolved : Option String) :
        kind ≠ .inclusion directive again resolved := by
      rintro rfl
      cases other
    rw [Node.link_eq_map follower apart, Option.map_eq_some_iff]
    constructor
    · rintro ⟨⟨inner, last⟩, inside, ⟨⟩⟩
      exact .other other inside
    · intro links
      cases links with
      | unresolved | directory | file => cases other
      | other other inside => exact ⟨_, inside, rfl⟩

theorem linkAll_nil : Node.linkAll follower inClass walk [] = some (linked, last) ↔
    linked = [] ∧ last = walk := by
  rw [Node.linkAll, Option.some.injEq, Prod.mk.injEq]
  exact and_congr eq_comm eq_comm

theorem linkAll_cons {node : Node} {rest : List Node} :
    Node.linkAll follower inClass walk (node :: rest) = some (linked, last) ↔
      ∃ first between others, follower.Links inClass walk node first between ∧
        Node.linkAll follower inClass between rest = some (others, last) ∧
        linked = first :: others := by
  simp only [Node.linkAll, Option.pure_def, Option.bind_eq_bind, Option.bind_eq_some_iff,
    Option.some.injEq, Prod.mk.injEq, Prod.exists, link_eq_some_iff]
  constructor
  · rintro ⟨first, between, links, others, last, tail, rfl, rfl⟩
    exact ⟨first, between, others, links, tail, rfl⟩
  · rintro ⟨first, between, others, links, tail, rfl⟩
    exact ⟨first, between, links, others, last, tail, rfl, rfl⟩

/-- If files can be entered, the includes in nodes can be resolved. -/
theorem exists_linkAll
    (enters : ∀ visited path scope inClass, ∃ entered,
      follower.enter visited path scope inClass = some entered)
    (nodes : List Node) (inClass : Bool) (walk : Walk) :
    ∃ linked, Node.linkAll follower inClass walk nodes = some linked := by
  induction nodes using Node.forest_induction generalizing inClass walk with
  | nil => exact ⟨([], walk), linkAll_nil.2 ⟨rfl, rfl⟩⟩
  | cons kind scope location nested rest inside later =>
      obtain ⟨first, between, links⟩ : ∃ first between,
          follower.Links inClass walk (.mk kind scope location nested) first between := by
        by_cases inclusion : kind.isInclusion = true
        · obtain ⟨directive, again, resolved, rfl⟩ := Kind.isInclusion_iff.1 inclusion
          cases named : follower.resolve? walk.base directive.target with
          | none => exact ⟨_, _, .unresolved named⟩
          | some path =>
              cases directory : follower.isDirectory path with
              | true => exact ⟨_, _, .directory named directory⟩
              | false =>
                  obtain ⟨_, entered⟩ := enters walk.visited path scope inClass
                  exact ⟨_, _, .file named directory entered⟩
        · obtain ⟨_, within⟩ := inside kind.isClass walk
          exact ⟨_, _, .other (Bool.eq_false_iff.2 inclusion) within⟩
      obtain ⟨⟨others, last⟩, tail⟩ := later inClass between
      exact ⟨(first :: others, last), linkAll_cons.2 ⟨first, between, others, links, tail, rfl⟩⟩

end Follower
end DebugBridge
