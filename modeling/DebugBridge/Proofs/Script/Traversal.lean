import DebugBridge.Proofs.Script.Following

/-!
# Files in the order of their includes

The search of a program is a walk along the includes of its files.  Every file is entered where the
walk first comes to it, under whatever path, and never again; so the walk comes to an end, and each
file is read and scanned at most once.  An include that names nothing leaves the walk as it was.
-/

namespace DebugBridge

/-! ## Left out includes -/

namespace Node

mutual

/-- A node without the includes that stand in some places. -/
def leaveOut (left : Location → Bool) : Node → List Node
  | .mk kind scope location nested =>
    if kind.isInclusion && left location then []
    else [.mk kind scope location (leaveOutAll left nested)]

/-- Nodes without the includes that stand in some places. -/
def leaveOutAll (left : Location → Bool) : List Node → List Node
  | [] => []
  | node :: rest => leaveOut left node ++ leaveOutAll left rest

end

/-- Whether a node is an include that names nothing. -/
def isUnresolved (node : Node) : Bool :=
  match node.kind with
  | .inclusion _ _ none => true
  | _ => false

end Node

namespace IncludeContext

open Node

/-! ## The walk -/

/-- What the walk has to do. -/
inductive Errand where
  /-- A file is to be entered under a scope. -/
  | enter (path : String) (scope : List String) (inClass : Bool)
  /-- The includes in nodes of a file are to be resolved. -/
  | link (file : String) (inClass : Bool) (outline : List Node)

/-- How the walk goes, with the nodes that it finds and the paths of the files that it reads, in this
order.  The outline of a scanned file is edited before the walk goes on in it. -/
inductive Runs (context : IncludeContext) (host : Host) (edit : List Node → List Node) :
    Errand → Walk → List Node → List String → Walk → Prop
  /-- A file that was entered before. -/
  | seen {path : String} {scope : List String} {inClass : Bool} {walk : Walk}
      (old : host.canonical path ∈ walk.visited) :
      Runs context host edit (.enter path scope inClass) walk [] [] walk
  /-- A file that cannot be read. -/
  | unreadable {path : String} {scope : List String} {inClass : Bool} {walk : Walk}
      {error : ScanError} (new : host.canonical path ∉ walk.visited)
      (fails : readScript host path = .error error) :
      Runs context host edit (.enter path scope inClass) walk [] [path]
        { walk with visited := host.canonical path :: walk.visited }
  /-- A file that is read and scanned. -/
  | scanned {path : String} {scope : List String} {inClass : Bool} {walk last : Walk}
      {text : List Char} {outline nodes : List Node} {reads : List String}
      (new : host.canonical path ∉ walk.visited) (read : readScript host path = .ok text)
      (found : (Source.ofText context.version path text).scan? 0
        (Source.ofText context.version path text).size scope inClass = some outline)
      (within : Runs context host edit (.link path inClass (edit outline))
        ⟨host.canonical path :: walk.visited, context.initialBase path⟩ nodes reads last) :
      Runs context host edit (.enter path scope inClass) walk nodes (path :: reads)
        { walk with visited := last.visited }
  /-- No node is left. -/
  | nothing {file : String} {inClass : Bool} {walk : Walk} :
      Runs context host edit (.link file inClass []) walk [] [] walk
  /-- An include that names nothing. -/
  | missing {file : String} {inClass : Bool} {directive : Directive} {again : Bool}
      {resolved : Option String} {scope : List String} {location : Location}
      {nested rest nodes : List Node} {walk last : Walk} {reads : List String}
      (fails : (context.resolve host file walk.base directive.target).toOption = none)
      (later : Runs context host edit (.link file inClass rest) walk nodes reads last) :
      Runs context host edit
        (.link file inClass (.mk (.inclusion directive again resolved) scope location nested :: rest))
        walk (.mk (.inclusion directive again none) scope location [] :: nodes) reads last
  /-- An include that names a directory. -/
  | directory {file : String} {inClass : Bool} {directive : Directive} {again : Bool}
      {resolved : Option String} {scope : List String} {location : Location}
      {nested rest nodes : List Node} {walk last : Walk} {path : String} {reads : List String}
      (names : (context.resolve host file walk.base directive.target).toOption = some path)
      (directory : host.files.isDirectory path = true)
      (later : Runs context host edit (.link file inClass rest) { walk with base := path } nodes reads
        last) :
      Runs context host edit
        (.link file inClass (.mk (.inclusion directive again resolved) scope location nested :: rest))
        walk (.mk (.inclusion directive again (some path)) scope location [] :: nodes) reads last
  /-- An include that names a file. -/
  | file {file : String} {inClass : Bool} {directive : Directive} {again : Bool}
      {resolved : Option String} {scope : List String} {location : Location}
      {nested rest inner nodes : List Node} {walk between last : Walk} {path : String}
      {reads more : List String}
      (names : (context.resolve host file walk.base directive.target).toOption = some path)
      (other : host.files.isDirectory path = false)
      (enters : Runs context host edit (.enter path scope inClass) walk inner reads between)
      (later : Runs context host edit (.link file inClass rest) between nodes more last) :
      Runs context host edit
        (.link file inClass (.mk (.inclusion directive again resolved) scope location nested :: rest))
        walk (.mk (.inclusion directive again (some path)) scope location inner :: nodes)
        (reads ++ more) last
  /-- A node that is no include. -/
  | other {file : String} {inClass : Bool} {kind : Kind} {scope : List String} {location : Location}
      {nested rest inner nodes : List Node} {walk between last : Walk} {reads more : List String}
      (other : kind.isInclusion = false)
      (inside : Runs context host edit (.link file kind.isClass nested) walk inner reads between)
      (later : Runs context host edit (.link file inClass rest) between nodes more last) :
      Runs context host edit (.link file inClass (.mk kind scope location nested :: rest)) walk
        (.mk kind scope location inner :: nodes) (reads ++ more) last

variable {context : IncludeContext} {host : Host} {edit : List Node → List Node} {errand : Errand}
  {walk last : Walk} {nodes : List Node} {reads : List String}

namespace Runs

/-- Every file that is read has not been entered before, and is entered then. -/
theorem visited_eq (runs : context.Runs host edit errand walk nodes reads last) :
    last.visited = (reads.map host.canonical).reverse ++ walk.visited ∧
      (walk.visited.Nodup → last.visited.Nodup) := by
  induction runs with
  | seen old => exact ⟨rfl, id⟩
  | unreadable new fails => exact ⟨rfl, fun distinct => distinct.cons new⟩
  | scanned new read found within ih =>
      refine ⟨?_, fun distinct => ih.2 (distinct.cons new)⟩
      rw [List.map_cons, List.reverse_cons, List.append_assoc, List.singleton_append]
      exact ih.1
  | nothing => exact ⟨rfl, id⟩
  | missing fails later ih => exact ih
  | directory names directory later ih => exact ih
  | file names other enters later ihInside ihLater | other other inside later ihInside ihLater =>
      refine ⟨?_, ihLater.2 ∘ ihInside.2⟩
      rw [ihLater.1, ihInside.1, List.map_append, List.reverse_append, List.append_assoc]

theorem subset (runs : context.Runs host edit errand walk nodes reads last) :
    walk.visited.toFinset ⊆ last.visited.toFinset := by
  rw [runs.visited_eq.1, List.toFinset_append]
  exact Finset.subset_union_right

/-- A walk can go only one way. -/
theorem unique {nodes' : List Node} {reads' : List String} {last' : Walk}
    (runs : context.Runs host edit errand walk nodes reads last)
    (runs' : context.Runs host edit errand walk nodes' reads' last') :
    nodes' = nodes ∧ reads' = reads ∧ last' = last := by
  induction runs generalizing nodes' reads' last' with
  | seen old =>
      cases runs' with
      | seen => exact ⟨rfl, rfl, rfl⟩
      | unreadable new | scanned new => exact absurd old new
  | unreadable new fails =>
      cases runs' with
      | seen old => exact absurd old new
      | unreadable => exact ⟨rfl, rfl, rfl⟩
      | scanned _ read =>
          rw [fails] at read
          cases read
  | scanned new read found within ih =>
      cases runs' with
      | seen old => exact absurd old new
      | unreadable _ fails =>
          rw [read] at fails
          cases fails
      | scanned _ read' found' within' =>
          rw [read] at read'
          cases read'
          rw [found] at found'
          cases found'
          obtain ⟨rfl, rfl, rfl⟩ := ih within'
          exact ⟨rfl, rfl, rfl⟩
  | nothing =>
      cases runs'
      exact ⟨rfl, rfl, rfl⟩
  | missing fails later ih =>
      cases runs' with
      | missing _ later' =>
          obtain ⟨rfl, rfl, rfl⟩ := ih later'
          exact ⟨rfl, rfl, rfl⟩
      | directory names | file names =>
          rw [fails] at names
          cases names
      | other other => cases other
  | directory names directory later ih =>
      cases runs' with
      | missing fails =>
          rw [fails] at names
          cases names
      | directory names' _ later' =>
          rw [names] at names'
          cases names'
          obtain ⟨rfl, rfl, rfl⟩ := ih later'
          exact ⟨rfl, rfl, rfl⟩
      | file names' other =>
          rw [names] at names'
          cases names'
          rw [directory] at other
          cases other
      | other other => cases other
  | file names other enters later ihInside ihLater =>
      cases runs' with
      | missing fails =>
          rw [fails] at names
          cases names
      | directory names' directory =>
          rw [names] at names'
          cases names'
          rw [directory] at other
          cases other
      | file names' _ enters' later' =>
          rw [names] at names'
          cases names'
          obtain ⟨rfl, rfl, rfl⟩ := ihInside enters'
          obtain ⟨rfl, rfl, rfl⟩ := ihLater later'
          exact ⟨rfl, rfl, rfl⟩
      | other other => cases other
  | other other inside later ihInside ihLater =>
      cases runs' with
      | missing | directory | file => cases other
      | other _ inside' later' =>
          obtain ⟨rfl, rfl, rfl⟩ := ihInside inside'
          obtain ⟨rfl, rfl, rfl⟩ := ihLater later'
          exact ⟨rfl, rfl, rfl⟩

end Runs

/-! ## The search walks -/

/-- Whether some nodes are what a walk into a file finds that reads some files. -/
def Finds (context : IncludeContext) (host : Host) (edit : List Node → List Node) (path : String)
    (nodes : List Node) (reads : List String) : Prop :=
  ∃ last, context.Runs host edit (.enter path [] false) ⟨[], context.initialBase path⟩ nodes reads last

theorem Finds.unique {path : String} {nodes' : List Node} {reads' : List String}
    (finds : context.Finds host edit path nodes reads)
    (finds' : context.Finds host edit path nodes' reads') : nodes' = nodes ∧ reads' = reads := by
  obtain ⟨last, runs⟩ := finds
  obtain ⟨last', runs'⟩ := finds'
  obtain ⟨same, read, -⟩ := runs.unique runs'
  exact ⟨same, read⟩

/-- The errand without some includes. -/
def Errand.leaveOut (left : Location → Bool) : Errand → Errand
  | .enter path scope inClass => .enter path scope inClass
  | .link file inClass outline => .link file inClass (leaveOutAll left outline)

/-- Without includes that name nothing the walk goes the same way. -/
theorem Runs.leaveOut {left : Location → Bool} {within : Bool}
    (runs : context.Runs host id errand walk nodes reads last)
    (missing : ∀ entry ∈ inclusionsAll within nodes,
      left entry.2.location = true → entry.2.isUnresolved = true) :
    context.Runs host (leaveOutAll left) (errand.leaveOut left) walk (leaveOutAll left nodes) reads
      last := by
  induction runs generalizing within with
  | seen old =>
      rw [leaveOutAll]
      exact .seen old
  | unreadable new fails =>
      rw [leaveOutAll]
      exact .unreadable new fails
  | scanned new read found inside ih => exact .scanned new read found (ih missing)
  | nothing =>
      rw [Errand.leaveOut, leaveOutAll]
      exact .nothing
  | @missing _ _ directive again resolved scope location nested rest nodes _ _ _ fails later ih =>
      rw [inclusionsAll, inclusions_inclusion, List.forall_mem_append] at missing
      have later' := ih missing.2
      by_cases out : left location = true
      · simpa [Errand.leaveOut, leaveOutAll, Node.leaveOut, Kind.isInclusion, out] using later'
      · simpa [Errand.leaveOut, leaveOutAll, Node.leaveOut, Kind.isInclusion, out] using
          Runs.missing fails later'
  | @directory _ _ directive again resolved scope location nested rest nodes _ _ path _ names directory
      later ih =>
      rw [inclusionsAll, inclusions_inclusion, List.forall_mem_append, List.forall_mem_cons] at missing
      have stays : left location ≠ true := fun out => by cases missing.1.1 out
      simpa [Errand.leaveOut, leaveOutAll, Node.leaveOut, Kind.isInclusion, stays] using
        Runs.directory names directory (ih missing.2)
  | @file _ _ directive again resolved scope location nested rest inner nodes _ _ _ path _ _ names other
      enters later ihInside ihLater =>
      rw [inclusionsAll, inclusions_inclusion, List.forall_mem_append, List.forall_mem_cons] at missing
      have stays : left location ≠ true := fun out => by cases missing.1.1 out
      simpa [Errand.leaveOut, leaveOutAll, Node.leaveOut, Kind.isInclusion, stays] using
        Runs.file names other (ihInside missing.1.2) (ihLater missing.2)
  | other other inside later ihInside ihLater =>
      rw [inclusionsAll, inclusions, if_neg (by simp [other]), List.forall_mem_append] at missing
      simpa [Errand.leaveOut, leaveOutAll, Node.leaveOut, other] using
        Runs.other other (ihInside missing.1) (ihLater missing.2)

/-! ## What the search does -/

/-- An include that names a file names one that can be read. -/
theorem Runs.readable {within : Bool} (runs : context.Runs host edit errand walk nodes reads last) :
    ∀ entry ∈ inclusionsAll within nodes, ∀ file ∈ host.included? entry.2,
      ∃ text, readScript host file = .ok text := by
  induction runs generalizing within with
  | seen | unreadable | nothing =>
      rw [inclusionsAll]
      simp
  | scanned new read found inside ih => exact ih
  | missing fails later ih =>
      rw [inclusionsAll, inclusions_inclusion, inclusionsAll, List.forall_mem_append,
        List.forall_mem_singleton]
      exact ⟨by rintro _ ⟨⟩, ih⟩
  | directory names directory later ih =>
      rw [inclusionsAll, inclusions_inclusion, inclusionsAll, List.forall_mem_append,
        List.forall_mem_singleton]
      refine ⟨fun file included => ?_, ih⟩
      rw [show host.included? (.mk (.inclusion _ _ (some _)) _ _ _) = none from if_pos directory]
        at included
      cases included
  | @file script _ _ _ _ _ _ _ _ _ _ _ _ _ path _ _ names other enters later ihInside ihLater =>
      rw [inclusionsAll, inclusions_inclusion, List.forall_mem_append, List.forall_mem_cons]
      refine ⟨⟨fun file included => ?_, ihInside⟩, ihLater⟩
      rw [show host.included? (.mk (.inclusion _ _ (some path)) _ _ _) = some path from
        if_neg (Bool.eq_false_iff.1 other)] at included
      cases included
      have names : (context.follower host script stay).resolve? _ _ = some path := names
      exact exists_readScript (names_of_follower names) other
  | other other inside later ihInside ihLater =>
      rw [inclusionsAll, inclusions, if_neg (by simp [other]), List.forall_mem_append]
      exact ⟨ihInside, ihLater⟩

end IncludeContext
end DebugBridge
