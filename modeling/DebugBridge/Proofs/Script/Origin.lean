import DebugBridge.Proofs.Script.Following

/-!
# Where nodes come from

Every node of a program was found in the scan of one file.  A node is reached from the outermost ones
without entering an include, and then it stands in the main script; or it is reached so from the nodes
below some include, and then it stands in the file that this include was the first to name.
-/

namespace DebugBridge

/-! ## Nodes of a forest -/

namespace Node

/-- Whether a node stands directly in another one; of the accessors of a property, those that count. -/
def StandsIn (node parent : Node) : Prop :=
  parent.kind.isProperty = false ∧ node ∈ parent.nested ∨ node ∈ parent.accessors

/-- The nodes of a forest, whatever their depth. -/
inductive Located (nodes : List Node) : Node → Prop
  | root {node : Node} (member : node ∈ nodes) : Located nodes node
  | inner {node parent : Node} (outer : Located nodes parent) (stands : node.StandsIn parent) :
      Located nodes node

/-- The nodes of a forest that do not come from an include. -/
inductive Own (nodes : List Node) : Node → Prop
  | root {node : Node} (member : node ∈ nodes) : Own nodes node
  | inner {node parent : Node} (outer : Own nodes parent) (other : parent.kind.isInclusion = false)
      (stands : node.StandsIn parent) : Own nodes node

/-- Nodes of which something holds that also holds of what is nested in them, includes not entered. -/
inductive Keeps (P : Node → Prop) : Node → Prop
  | mk {kind : Kind} {scope : List String} {location : Location} {nested : List Node}
      (here : P (.mk kind scope location nested))
      (below : kind.isInclusion = false → ∀ child ∈ nested, Keeps P child) :
      Keeps P (.mk kind scope location nested)

theorem Keeps.holds {P : Node → Prop} {node : Node} (keeps : Keeps P node) : P node := by
  cases keeps with
  | mk here below => exact here

/-- The last of some nodes that satisfies something, and what stands after it. -/
theorem exists_of_getLast?_filter {p : Node → Bool} {nodes : List Node} {node : Node}
    (last : (nodes.filter p).getLast? = some node) :
    ∃ before after, nodes = before ++ node :: after ∧ p node = true ∧
      ∀ later ∈ after, p later = false := by
  rw [List.getLast?_eq_head?_reverse, ← List.filter_reverse, List.head?_filter,
    List.find?_eq_some_iff_append] at last
  obtain ⟨holds, after, before, split, none⟩ := last
  refine ⟨before.reverse, after.reverse, ?_, holds, fun later member => ?_⟩
  · rw [← List.reverse_inj, split]
    simp
  · simpa using none later (List.mem_reverse.1 member)

/-- An accessor that counts is one of its kind after which no other one follows. -/
theorem exists_of_mem_accessors {node parent : Node} (member : node ∈ parent.accessors) :
    parent.kind.isProperty = true ∧ ∃ before after, parent.nested = before ++ node :: after ∧
      ∀ later ∈ after, (later.name? == some "get") ≠ (node.name? == some "get") := by
  rw [accessors, List.mem_append, Option.mem_toList, Option.mem_toList, getter?, setter?] at member
  by_cases property : parent.kind.isProperty = true
  · refine ⟨property, ?_⟩
    rw [if_pos property, if_pos property] at member
    rcases member with getter | setter
    · obtain ⟨before, after, split, holds, none⟩ := exists_of_getLast?_filter getter
      exact ⟨before, after, split, fun later member => by simp [none later member, holds]⟩
    · obtain ⟨before, after, split, holds, none⟩ := exists_of_getLast?_filter setter
      refine ⟨before, after, split, fun later member => ?_⟩
      have getter := none later member
      simp only [bne, Bool.not_eq_eq_eq_not, Bool.not_true, Bool.not_false] at holds getter
      simp [holds, getter]
  · simp [property] at member

theorem StandsIn.mem_nested {node parent : Node} (stands : node.StandsIn parent) :
    node ∈ parent.nested := by
  rcases stands with ⟨-, member⟩ | counts
  · exact member
  · obtain ⟨-, before, after, split, -⟩ := exists_of_mem_accessors counts
    simp [split]

theorem Own.keeps {P : Node → Prop} {nodes : List Node} {node : Node}
    (all : ∀ node ∈ nodes, Keeps P node) (own : Own nodes node) : Keeps P node := by
  induction own with
  | root member => exact all _ member
  | inner outer other stands ih =>
      cases ih with
      | mk here below => exact below other _ stands.mem_nested

/-- A node comes from an include or not. -/
theorem Located.origin {nodes : List Node} {node : Node} (located : Located nodes node) :
    Own nodes node ∨ ∃ inclusion, Located nodes inclusion ∧ inclusion.kind.isInclusion = true ∧
      Own inclusion.nested node := by
  induction located with
  | root member => exact .inl (.root member)
  | @inner node parent outer stands ih =>
      by_cases inclusion : parent.kind.isInclusion = true
      · exact .inr ⟨parent, outer, inclusion, .root stands.mem_nested⟩
      · have other : parent.kind.isInclusion = false := Bool.eq_false_iff.2 inclusion
        rcases ih with own | ⟨host, there, isInclusion, own⟩
        · exact .inl (.inner own other stands)
        · exact .inr ⟨host, there, isInclusion, .inner own other stands⟩

theorem mem_inclusionsAll_of_mem {nodes : List Node} {node : Node} (member : node ∈ nodes)
    {inClass : Bool} {entry : Bool × Node} (inside : entry ∈ inclusions inClass node) :
    entry ∈ inclusionsAll inClass nodes := by
  induction nodes with
  | nil => cases member
  | cons first rest ih =>
      rw [inclusionsAll, List.mem_append]
      rcases List.mem_cons.1 member with rfl | later
      · exact .inl inside
      · exact .inr (ih later)

/-- The includes of a forest are among those in document order. -/
theorem Located.exists_inclusions {nodes : List Node} {node : Node} (located : Located nodes node)
    (inClass : Bool) : ∃ within, ∀ entry ∈ inclusions within node, entry ∈ inclusionsAll inClass nodes := by
  induction located with
  | root member => exact ⟨inClass, fun entry inside => mem_inclusionsAll_of_mem member inside⟩
  | @inner node parent outer stands ih =>
      obtain ⟨within, outside⟩ := ih
      obtain ⟨kind, scope, location, nested⟩ := parent
      rw [inclusions] at outside
      split at outside
      · exact ⟨within, fun entry inside => outside entry
          (List.mem_cons_of_mem _ (mem_inclusionsAll_of_mem stands.mem_nested inside))⟩
      · exact ⟨kind.isClass, fun entry inside => outside entry
          (mem_inclusionsAll_of_mem stands.mem_nested inside)⟩

theorem Located.exists_mem_inclusionsAll {nodes : List Node} {node : Node}
    (located : Located nodes node) (inclusion : node.kind.isInclusion = true) (inClass : Bool) :
    ∃ within, (within, node) ∈ inclusionsAll inClass nodes := by
  obtain ⟨within, inside⟩ := located.exists_inclusions inClass
  refine ⟨within, inside _ ?_⟩
  obtain ⟨kind, scope, location, nested⟩ := node
  rw [inclusions, if_pos (show kind.isInclusion = true from inclusion)]
  exact List.mem_cons_self

mutual

/-- What a node is flattened to are nodes of every forest that it is in. -/
theorem located_of_mem_flatten {nodes : List Node} {node : Node} (located : Located nodes node)
    {inner : Node} (member : inner ∈ flatten node) : Located nodes inner := by
  cases node with
  | mk kind scope location nested =>
      rw [flatten] at member
      rcases List.mem_cons.1 member with rfl | member
      · exact located
      · split at member
        · cases member
        next other =>
          exact located_of_mem_flattenAll
            (fun child inside => .inner located (.inl ⟨Bool.eq_false_iff.2 other, inside⟩)) member

theorem located_of_mem_flattenAll {nodes others : List Node}
    (all : ∀ node ∈ others, Located nodes node) {inner : Node} (member : inner ∈ flattenAll others) :
    Located nodes inner := by
  cases others with
  | nil => cases member
  | cons first rest =>
      rw [flattenAll, List.mem_append] at member
      rw [List.forall_mem_cons] at all
      rcases member with here | later
      · exact located_of_mem_flatten all.1 here
      · exact located_of_mem_flattenAll all.2 later

end

end Node

/-! ## Nodes of a file -/

namespace Source

open Node

/-- A node with a place in a file; a skipped region has nothing in it. -/
structure Holds (source : Source) (node : Node) : Prop where
  located : ∃ start stop, source.location? start stop = some node.location
  flat : node.kind = .skip → node.nested = []

variable {source : Source} {node : Node}

/-- A node stands in its file, on a line or several lines in order. -/
theorem Holds.lines (holds : source.Holds node) : node.location.file = source.path ∧
    1 ≤ node.location.first.line ∧ node.location.first.line ≤ node.location.last.line := by
  obtain ⟨start, stop, located⟩ := holds.located
  obtain ⟨-, -, first, last, -⟩ := location?_spec located
  refine ⟨?_, by rw [first]; exact Nat.succ_pos _, ?_⟩
  · simp only [location?, Option.pure_def, Option.bind_eq_bind, Option.bind_eq_some_iff,
      Option.some.injEq] at located
    obtain ⟨text, -, same⟩ := located
    exact same ▸ rfl
  · rw [first, last]
    exact Nat.succ_le_succ (lineOf_mono source (Nat.le_max_right _ _))

section Scans

variable {text masked : List Char} (reads : source.Reads text masked)

theorem keeps_of_accessorNode? {scope : List String} {accessor : Opener} {start resume : Nat}
    (found : source.AccessorAt start accessor resume)
    (enter : ∀ (range : Nat × Nat) scope nodes, start < range.1 →
      source.scan? range.1 range.2 scope false = some nodes → ∀ node ∈ nodes, Keeps source.Holds node)
    (entered : source.accessorNode? scope accessor = some node) : Keeps source.Holds node := by
  simp only [accessorNode?, Option.pure_def, Option.bind_eq_bind, Option.bind_eq_some_iff,
    Option.some.injEq] at entered
  obtain ⟨inside, within, rfl⟩ := entered
  cases found with
  | arrow flat located =>
      cases within
      exact .mk ⟨⟨_, _, located⟩, fun _ => rfl⟩ fun _ => by simp
  | @block kind location brace lined byte first reached located =>
      refine .mk ⟨⟨_, _, located⟩, ?_⟩ fun _ =>
        enter _ _ _ (show start < brace + 1 by omega) within
      rintro rfl
      cases lined

include reads

/-- What is made of a construct has its place in the file. -/
theorem keeps_of_opens {pos limit next : Nat} {segment : List Char} {opener : Opener}
    {accessors : List Opener} {scope inner : List String} {inside nested : List Node}
    (before : pos < limit) (looked : source.segment? pos limit = some segment)
    (opens : source.Opens pos limit segment opener accessors next)
    (enter : ∀ (range : Nat × Nat) scope inClass nodes, pos < range.1 →
      source.scan? range.1 range.2 scope inClass = some nodes → ∀ node ∈ nodes, Keeps source.Holds node)
    (entered : source.within? opener.inside inner opener.kind.isClass = some inside)
    (accessed : accessors.mapM (source.accessorNode? inner) = some nested) :
    Keeps source.Holds (.mk opener.kind scope opener.location (inside ++ nested)) := by
  obtain ⟨low, -, -⟩ := codeStart_of_segment reads before looked
  cases opens with
  | comment begins ends located | line begins code flat located
  | arrow flat first last further located =>
      cases entered
      cases accessed
      exact .mk ⟨⟨_, _, located⟩, fun _ => rfl⟩ fun _ => by simp
  | @block kind location brace lined byte first reached located =>
      cases accessed
      rw [List.reverse_nil, List.append_nil]
      refine .mk ⟨⟨_, _, located⟩, ?_⟩ fun _ =>
        enter _ _ _ _ (show pos < brace + 1 by omega) entered
      rintro rfl
      cases lined
  | @property kind location brace accessors lined byte first reached located found =>
      cases entered
      refine .mk ⟨⟨_, _, located⟩, ?_⟩ fun _ child member => ?_
      · rintro rfl
        cases lined
      · obtain ⟨accessor, place, entered⟩ := (nodes_of_mapM accessed).2 child member
        obtain ⟨start, begins, next, after, -, found⟩ :=
          (accessors_of_accessors? reads found).2 accessor place
        exact keeps_of_accessorNode? found
          (fun range scope nodes later => enter range scope false nodes (by omega)) entered

/-- What a scan finds has its place in the file. -/
theorem keeps_of_scan? {pos limit : Nat} {scope : List String} {inClass : Bool} {nodes : List Node}
    (found : source.scan? pos limit scope inClass = some nodes) :
    ∀ node ∈ nodes, Keeps source.Holds node := by
  refine scan?_induction (P := fun _ _ _ _ nodes => ∀ node ∈ nodes, Keeps source.Holds node)
    (fun _ => List.forall_mem_nil _) (fun _ _ _ _ rest => rest) ?_ found
  intro pos limit next scope inClass opener accessors inside nested others inFile turn entered accessed
    enter _ _ rest
  obtain ⟨segment, looked, opens⟩ := opens_of_found reads inFile.1 turn
  exact List.forall_mem_cons.2
    ⟨keeps_of_opens reads inFile.1 looked opens enter entered accessed, rest⟩

end Scans

/-- Resolving includes moves no node. -/
theorem keeps_linkAll {follower : Follower} {inClass : Bool} {walk last : Walk}
    {nodes linked : List Node} (all : ∀ node ∈ nodes, Keeps source.Holds node)
    (found : Node.linkAll follower inClass walk nodes = some (linked, last)) :
    ∀ node ∈ linked, Keeps source.Holds node := by
  induction nodes using Node.forest_induction generalizing inClass walk last linked with
  | nil =>
      obtain ⟨rfl, -⟩ := Follower.linkAll_nil.1 found
      simp
  | cons kind scope location nested rest inside later =>
      obtain ⟨first, between, others, links, tail, rfl⟩ := Follower.linkAll_cons.1 found
      rw [List.forall_mem_cons] at all ⊢
      refine ⟨?_, later all.2 tail⟩
      cases all.1 with
      | mk here below =>
          cases links with
          | unresolved fails =>
              exact .mk ⟨here.located, by rintro ⟨⟩⟩ (by rintro ⟨⟩)
          | directory names directory =>
              exact .mk ⟨here.located, by rintro ⟨⟩⟩ (by rintro ⟨⟩)
          | file names file enters =>
              exact .mk ⟨here.located, by rintro ⟨⟩⟩ (by rintro ⟨⟩)
          | other other within =>
              refine .mk ⟨here.located, fun skip => ?_⟩ fun _ => inside (below other) within
              have empty : nested = [] := here.flat skip
              subst empty
              exact (Follower.linkAll_nil.1 within).1

end Source

/-! ## Files of a program -/

namespace IncludeContext

open Node Source

variable {context : IncludeContext} {host : Host} {path : String} {text : List Char}
  {enter : List String → String → List String → Bool → Option (List Node × List String)}
  {visited after : List String} {scope : List String} {inClass : Bool} {nodes : List Node}

/-- Whether nodes are those of a script scanned under a scope, with its includes resolved. -/
def Entered (context : IncludeContext) (host : Host) (path : String) (scope : List String)
    (inClass : Bool) (nodes : List Node) : Prop :=
  ∃ text enter visited source after, readScript host path = .ok text ∧
    context.scanText host enter visited path text scope inClass = some (source, nodes, after)

/-- Whether the nodes below an include are those of the file that it names, if there are any. -/
def Stems (context : IncludeContext) (host : Host) (entry : Bool × Node) : Prop :=
  entry.2.nested = [] ∨ ∃ path, host.included? entry.2 = some path ∧
    context.Entered host path entry.2.scope entry.1 entry.2.nested

/-- What comes of entering a file: nothing, or its nodes; and so for the includes in it. -/
def EntersFiles (context : IncludeContext) (host : Host)
    (enter : List String → String → List String → Bool → Option (List Node × List String)) : Prop :=
  ∀ visited path scope inClass nodes after, enter visited path scope inClass = some (nodes, after) →
    (nodes = [] ∨ context.Entered host path scope inClass nodes) ∧
      ∀ entry ∈ inclusionsAll inClass nodes, context.Stems host entry

theorem stems_linkAll (enters : context.EntersFiles host enter) {walk last : Walk}
    {outline : List Node}
    (found : Node.linkAll (context.follower host path enter) inClass walk outline =
      some (nodes, last)) : ∀ entry ∈ inclusionsAll inClass nodes, context.Stems host entry := by
  induction outline using Node.forest_induction generalizing inClass walk last nodes with
  | nil =>
      obtain ⟨rfl, -⟩ := Follower.linkAll_nil.1 found
      rw [inclusionsAll]
      simp
  | cons kind scope location nested rest inside later =>
      obtain ⟨first, between, others, links, tail, rfl⟩ := Follower.linkAll_cons.1 found
      rw [inclusionsAll, List.forall_mem_append]
      refine ⟨?_, later tail⟩
      cases links with
      | unresolved fails =>
          rw [inclusions_inclusion, inclusionsAll, List.forall_mem_singleton]
          exact .inl rfl
      | directory names directory =>
          rw [inclusions_inclusion, inclusionsAll, List.forall_mem_singleton]
          exact .inl rfl
      | @file _ _ _ _ _ _ inner included _ names file entered =>
          obtain ⟨whole, each⟩ := enters _ _ _ _ _ _ entered
          rw [inclusions_inclusion, List.forall_mem_cons]
          refine ⟨whole.imp_right fun whole => ⟨included, ?_, whole⟩, each⟩
          exact if_neg (Bool.eq_false_iff.1 file)
      | other other within =>
          rw [inclusions, other]
          exact inside within

theorem stems_scanText (enters : context.EntersFiles host enter) {source : Source}
    (found : context.scanText host enter visited path text scope inClass =
      some (source, nodes, after)) : ∀ entry ∈ inclusionsAll inClass nodes, context.Stems host entry := by
  obtain ⟨-, outline, base, -, linked⟩ := scanText_eq_some_iff.1 found
  exact stems_linkAll enters linked

theorem entersFiles (context : IncludeContext) (host : Host) (depth : Nat) :
    context.EntersFiles host (context.enter host depth) := by
  induction depth with
  | zero =>
      rintro visited path scope inClass _ _ ⟨⟩
      rw [inclusionsAll]
      exact ⟨.inl rfl, by simp⟩
  | succ depth ih =>
      intro visited path scope inClass nodes after entered
      rw [enter] at entered
      dsimp only at entered
      have nothing (entered : some (([] : List Node), after) = some (nodes, after)) :
          (nodes = [] ∨ context.Entered host path scope inClass nodes) ∧
            ∀ entry ∈ inclusionsAll inClass nodes, context.Stems host entry := by
        cases entered
        rw [inclusionsAll]
        exact ⟨.inl rfl, by simp⟩
      split at entered
      · cases entered
        exact nothing rfl
      · split at entered
        · cases entered
          exact nothing rfl
        next text read =>
          simp only [Option.pure_def, Option.bind_eq_bind, Option.bind_eq_some_iff, Option.some.injEq,
            Prod.mk.injEq, Prod.exists] at entered
          obtain ⟨source, _, _, found, rfl, rfl⟩ := entered
          exact ⟨.inr ⟨_, _, _, _, _, read, found⟩, stems_scanText ih found⟩

/-- What is found of a script has its place in the script. -/
theorem Entered.keeps (entered : context.Entered host path scope inClass nodes) :
    ∃ source : Source, source.path = path ∧ ∀ node ∈ nodes, Keeps source.Holds node := by
  obtain ⟨text, enter, visited, source, after, -, found⟩ := entered
  obtain ⟨rfl, outline, base, scanned, linked⟩ := scanText_eq_some_iff.1 found
  exact ⟨_, rfl, keeps_linkAll
    (keeps_of_scan? (reads_ofText context.version path text) scanned) linked⟩

/-- The nodes of a program are those of its files: each was found in the main script, or in a script
that some include names. -/
theorem exists_script {node : Node} (found : context.findProgram host path = .ok nodes)
    (located : Located nodes node) : ∃ part scope inClass,
      context.Entered host node.location.file scope inClass part ∧ Own part node ∧
        (part = nodes ∧ inClass = false ∨
          ∃ inclusion, (inClass, inclusion) ∈ inclusionsAll false nodes ∧
            part = inclusion.nested ∧ host.included? inclusion = some node.location.file) := by
  obtain ⟨text, read, found⟩ := exists_of_bind_ok found
  rw [findInSource] at found
  split at found
  · next source _ after scanned =>
    cases found
    have whole : context.Entered host path [] false nodes := ⟨text, _, _, _, _, read, scanned⟩
    -- A node stands in the script whose scan has found it.
    have there {script : String} {scope : List String} {inClass : Bool} {part : List Node}
        (entered : context.Entered host script scope inClass part) (own : Own part node) :
        node.location.file = script := by
      obtain ⟨source, rfl, keeps⟩ := entered.keeps
      exact (own.keeps keeps).holds.lines.1
    rcases located.origin with own | ⟨inclusion, outer, isInclusion, own⟩
    · obtain rfl := there whole own
      exact ⟨nodes, [], false, whole, own, .inl ⟨rfl, rfl⟩⟩
    · obtain ⟨within, member⟩ := outer.exists_mem_inclusionsAll isInclusion false
      rcases stems_scanText (context.entersFiles host _) scanned _ member with
        empty | ⟨script, included, entered⟩
      · rw [empty] at own
        cases own.keeps (P := fun _ => False) (by simp) with
        | mk here below => exact here.elim
      · obtain rfl := there entered own
        exact ⟨_, _, _, entered, own, .inr ⟨inclusion, member, rfl, included⟩⟩
  · cases found

/-- A node of a program stands on a line or several lines in order. -/
theorem lines_of_located {node : Node} (found : context.findProgram host path = .ok nodes)
    (located : Located nodes node) :
    1 ≤ node.location.first.line ∧ node.location.first.line ≤ node.location.last.line := by
  obtain ⟨_, _, _, entered, own, -⟩ := exists_script found located
  obtain ⟨source, -, keeps⟩ := entered.keeps
  exact (own.keeps keeps).holds.lines.2

end IncludeContext
end DebugBridge
