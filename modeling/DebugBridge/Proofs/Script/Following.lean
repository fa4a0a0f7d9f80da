import DebugBridge.Proofs.File.Tree
import DebugBridge.Proofs.Script.Cuts

/-!
# Following includes

Whether includes are followed does not change what is seen in a file: without what was included,
the nodes of a text are those of the text scanned on its own, and an include that was entered shows
the nodes of its file scanned on its own, below the names that enclose the include.
-/

namespace DebugBridge

/-! ## Forests -/

namespace Node

mutual

/-- A node with the includes in it emptied. -/
def shut : Node → Node
  | .mk kind scope location nested =>
    .mk kind scope location (if kind.isInclusion then [] else shutAll nested)

/-- Nodes with the includes in them emptied. -/
def shutAll : List Node → List Node
  | [] => []
  | node :: rest => shut node :: shutAll rest

end

mutual

/-- A node with more names around it. -/
def under (front : List String) : Node → Node
  | .mk kind scope location nested => .mk kind (front ++ scope) location (underAll front nested)

/-- Nodes with more names around them. -/
def underAll (front : List String) : List Node → List Node
  | [] => []
  | node :: rest => under front node :: underAll front rest

end

mutual

/-- The includes in a node, each before those in the file that it names, with whether it stands
directly in a class, or outside of declarations in a file that was included from there. -/
def inclusions (inClass : Bool) : Node → List (Bool × Node)
  | .mk kind scope location nested =>
    if kind.isInclusion then
      (inClass, .mk kind scope location nested) :: inclusionsAll inClass nested
    else inclusionsAll kind.isClass nested

/-- The includes in nodes, in document order. -/
def inclusionsAll (inClass : Bool) : List Node → List (Bool × Node)
  | [] => []
  | node :: rest => inclusions inClass node ++ inclusionsAll inClass rest

end

theorem inclusions_inclusion (inClass : Bool) (directive : Directive) (again : Bool)
    (resolved : Option String) (scope : List String) (location : Location) (nested : List Node) :
    inclusions inClass (.mk (.inclusion directive again resolved) scope location nested) =
      (inClass, .mk (.inclusion directive again resolved) scope location nested) ::
        inclusionsAll inClass nested := by
  rw [inclusions]
  rfl

theorem underAll_eq_map (front : List String) (nodes : List Node) :
    underAll front nodes = nodes.map (under front) := by
  induction nodes with
  | nil => rw [underAll, List.map_nil]
  | cons node rest ih => rw [underAll, ih, List.map_cons]

@[simp]
theorem underAll_nil (nodes : List Node) : underAll [] nodes = nodes := by
  induction nodes using forest_induction with
  | nil => rw [underAll]
  | cons kind scope location nested rest inside later =>
      rw [underAll, under, inside, later, List.nil_append]

end Node

/-! ## Scans below names -/

namespace Source

open Node

variable {source : Source} {front : List String}

theorem within?_under {inside : Option (Nat × Nat)} {scope : List String} {inClass : Bool}
    (enter : ∀ range ∈ inside, source.scan? range.1 range.2 (front ++ scope) inClass =
      (source.scan? range.1 range.2 scope inClass).map (underAll front)) :
    source.within? inside (front ++ scope) inClass =
      (source.within? inside scope inClass).map (underAll front) := by
  cases inside with
  | none => rw [within?, within?, Option.map_some, underAll]
  | some range => exact enter range rfl

theorem accessors_under {scope : List String} {accessors : List Opener}
    (enter : ∀ accessor ∈ accessors, ∀ range ∈ accessor.inside, ∀ scope,
      source.scan? range.1 range.2 (front ++ scope) false =
        (source.scan? range.1 range.2 scope false).map (underAll front)) :
    accessors.mapM (source.accessorNode? (front ++ scope)) =
      (accessors.mapM (source.accessorNode? scope)).map (underAll front) := by
  induction accessors with
  | nil => rfl
  | cons accessor rest ih =>
      rw [List.forall_mem_cons] at enter
      have first : source.accessorNode? (front ++ scope) accessor =
          (source.accessorNode? scope accessor).map (under front) := by
        rw [accessorNode?, accessorNode?, List.append_assoc,
          within?_under fun range member => enter.1 range member _]
        cases source.within? accessor.inside (scope ++ accessor.kind.name?.toList) false <;> rfl
      rw [List.mapM_cons, List.mapM_cons, first, ih enter.2]
      cases source.accessorNode? scope accessor <;>
        cases rest.mapM (source.accessorNode? scope) <;> rfl

/-- What a scan finds does not depend on the names around it, which stand before all others. -/
theorem scan?_under (source : Source) (front : List String) (pos limit : Nat)
    (scope : List String) (inClass : Bool) : source.scan? pos limit (front ++ scope) inClass =
      (source.scan? pos limit scope inClass).map (underAll front) := by
  induction size_eq : source.size - pos using Nat.strong_induction_on
    generalizing pos limit scope inClass with
  | h size ih =>
      subst size_eq
      by_cases inFile : pos < limit ∧ pos < source.size
      · cases turn : source.turnAt? pos limit inClass with
        | none => rw [scan?_stuck inFile turn, scan?_stuck inFile turn, Option.map_none]
        | some turn' =>
            obtain ⟨further, deeper⟩ := turnAt?_advances inFile.2 turn
            cases turn' with
            | pass next =>
                rw [scan?_pass inFile turn, scan?_pass inFile turn]
                exact ih _ (Nat.sub_lt_sub_left inFile.2 further) next limit scope inClass rfl
            | found opener accessors next =>
                have enter (range : Nat × Nat) (scope : List String) (inClass : Bool)
                    (member : range ∈ (Turn.found opener accessors next).insides) :
                    source.scan? range.1 range.2 (front ++ scope) inClass =
                      (source.scan? range.1 range.2 scope inClass).map (underAll front) :=
                  ih _ (Nat.sub_lt_sub_left inFile.2 (deeper range member)) _ _ scope inClass rfl
                rw [scan?_eq_bind inFile turn, scan?_eq_bind inFile turn]
                dsimp only
                rw [List.append_assoc,
                  within?_under fun range member => enter range _ _ (by
                    simp [Turn.insides, Option.mem_def.1 member]),
                  accessors_under fun accessor place range member scope => enter range _ _ (by
                    simp only [Turn.insides, List.mem_append, List.mem_filterMap]
                    exact .inr ⟨accessor, place, member⟩),
                  ih _ (Nat.sub_lt_sub_left inFile.2 further) next limit scope inClass rfl]
                cases source.within? opener.inside (scope ++ opener.kind.name?.toList)
                    opener.kind.isClass <;>
                  cases accessors.mapM
                    (source.accessorNode? (scope ++ opener.kind.name?.toList)) <;>
                  cases source.scan? next limit scope inClass <;>
                  simp [underAll, under, underAll_eq_map]
      · rw [scan?_outside inFile, scan?_outside inFile, Option.map_some, underAll]

end Source

/-! ## Resolved includes -/

namespace Follower

variable {follower : Follower} {inClass : Bool} {walk last : Walk} {nodes linked : List Node}

/-- The follower that enters no file. -/
def staying (follower : Follower) : Follower :=
  { follower with enter := IncludeContext.stay }

/-- Without what was entered, the includes in nodes are resolved as if no file were entered. -/
theorem linkAll_staying (found : Node.linkAll follower inClass walk nodes = some (linked, last))
    (visited : List String) :
    Node.linkAll follower.staying inClass { walk with visited } nodes =
      some (Node.shutAll linked, { last with visited }) := by
  induction nodes using Node.forest_induction generalizing inClass walk last linked with
  | nil =>
      obtain ⟨rfl, rfl⟩ := linkAll_nil.1 found
      rw [Node.linkAll, Node.shutAll]
  | cons kind scope location nested rest inside later =>
      obtain ⟨first, between, others, links, tail, rfl⟩ := linkAll_cons.1 found
      refine linkAll_cons.2 ⟨first.shut, { between with visited }, _, ?_, later tail, ?_⟩
      · cases links with
        | unresolved fails => exact .unresolved fails
        | directory names directory => exact .directory names directory
        | file names file enters => exact .file names file rfl
        | other other within =>
            rw [Node.shut, other]
            exact .other other (inside within)
      · rw [Node.shutAll]

/-- Where no file is entered, neither the names around nodes nor a class around them count. -/
theorem linkAll_under (follower : Follower) (front : List String) (within : Bool)
    (found : Node.linkAll follower.staying inClass walk nodes = some (linked, last)) :
    Node.linkAll follower.staying within walk (Node.underAll front nodes) =
      some (Node.underAll front linked, last) := by
  induction nodes using Node.forest_induction generalizing inClass within walk last linked with
  | nil =>
      obtain ⟨rfl, rfl⟩ := linkAll_nil.1 found
      rw [Node.underAll, Node.linkAll]
  | cons kind scope location nested rest inside later =>
      obtain ⟨first, between, others, links, tail, rfl⟩ := linkAll_cons.1 found
      rw [Node.underAll, Node.underAll]
      refine linkAll_cons.2 ⟨_, _, _, ?_, later within tail, rfl⟩
      rw [Node.under]
      cases links with
      | unresolved fails => exact .unresolved fails
      | directory names directory => exact .directory names directory
      | file names file enters =>
          cases enters
          exact .file names file rfl
      | other other here => exact .other other (inside kind.isClass here)

end Follower

/-! ## Included files -/

namespace Host

/-- Surroundings with scripts of given names and texts. -/
def ofScripts (scripts : List (String × String)) : Host where
  files :=
    { entries := scripts.map fun script => ([script.1], .file (Text.utf8 script.2.toList))
      workingPlace := [] }
  environment := ⟨[]⟩

/-- The file that an include has resolved to. -/
def included? (host : Host) (node : Node) : Option String :=
  match node.kind with
  | .inclusion _ _ (some path) => if host.files.isDirectory path then none else some path
  | _ => none

/-- The names of the files that includes have resolved to. -/
def includedNames (host : Host) (inclusions : List (Bool × Node)) : Finset String :=
  (inclusions.filterMap fun entry => (host.included? entry.2).map host.canonical).toFinset

@[simp]
theorem includedNames_nil (host : Host) : host.includedNames [] = ∅ := rfl

@[simp]
theorem includedNames_append (host : Host) (first second : List (Bool × Node)) :
    host.includedNames (first ++ second) =
      host.includedNames first ∪ host.includedNames second := by
  rw [includedNames, includedNames, includedNames, List.filterMap_append, List.toFinset_append]

theorem includedNames_cons (host : Host) (entry : Bool × Node) (rest : List (Bool × Node)) :
    host.includedNames (entry :: rest) =
      ((host.included? entry.2).map host.canonical).toFinset ∪ host.includedNames rest := by
  cases named : host.included? entry.2 with
  | none => simp [includedNames, named]
  | some path => simp [includedNames, named]

end Host

namespace IncludeContext

open Node Source

section Files

variable {context : IncludeContext} {host : Host} {file base target path : String}

theorem names_of_library? {name : List Char} (found : context.library? host name = some path) :
    host.files.names path = true := by
  obtain ⟨candidate, -, found⟩ := List.exists_of_findSome?_eq_some found
  obtain ⟨directory, -, found⟩ := List.exists_of_findSome?_eq_some found
  dsimp only at found
  split at found
  · next file =>
    cases found
    exact FileTree.names_of_isFile file
  · cases found

theorem names_of_resolve (found : context.resolve host file base target = .ok path) :
    host.files.names path = true := by
  unfold resolve at found
  split at found
  · split at found
    · next library =>
      cases found
      exact names_of_library? library
    · cases found
  · obtain ⟨text, -, found⟩ := exists_of_bind_ok found
    dsimp only at found
    rcases ite_eq_iff.1 found with ⟨names, same⟩ | ⟨-, same⟩
    · cases same
      exact names
    · cases same

theorem names_of_follower
    {enter : List String → String → List String → Bool → Option (List Node × List String)}
    (resolved : (context.follower host file enter).resolve? base target = some path) :
    host.files.names path = true := by
  change (context.resolve host file base target).toOption = some path at resolved
  cases found : context.resolve host file base target <;> rw [found] at resolved <;> cases resolved
  exact names_of_resolve found

/-- A path that names something but no directory names a script that can be read. -/
theorem exists_readScript (names : host.files.names path = true)
    (file : host.files.isDirectory path = false) : ∃ text, readScript host path = .ok text := by
  obtain ⟨bytes, read⟩ := FileTree.exists_read names file
  rw [readScript, read]
  split
  · next failed => cases failed
  · exact ⟨_, rfl⟩
  · exact ⟨_, rfl⟩

theorem exists_read_of_readScript {text : List Char} (read : readScript host path = .ok text) :
    ∃ bytes, host.files.read path = .ok bytes := by
  cases found : host.files.read path with
  | error error =>
      rw [readScript, found] at read
      cases read
  | ok bytes => exact ⟨bytes, rfl⟩

end Files

/-! ## What includes show -/

variable {context : IncludeContext} {host : Host}

/-- What an include shows, some files having been entered before: nothing if it names no file or one
of these; else, outside of classes, the nodes of the file scanned on its own, below the names around
the include. -/
structure Shows (context : IncludeContext) (host : Host) (seen : Finset String) (inClass : Bool)
    (node : Node) : Prop where
  nothing : (∀ path ∈ host.included? node, host.canonical path ∈ seen) → node.nested = []
  file : inClass = false → ∀ path ∈ host.included? node, host.canonical path ∉ seen →
    ∃ file, context.scanFile host path = .ok file ∧
      shutAll node.nested = underAll node.scope file.nodes

/-- What includes show in document order, each after those before it. -/
def ShowsAll (context : IncludeContext) (host : Host) (seen : Finset String) :
    List (Bool × Node) → Prop
  | [] => True
  | (inClass, node) :: rest => context.Shows host seen inClass node ∧
      ShowsAll context host (seen ∪ host.includedNames [(inClass, node)]) rest

theorem showsAll_append {seen : Finset String} {first second : List (Bool × Node)} :
    context.ShowsAll host seen (first ++ second) ↔
      context.ShowsAll host seen first ∧
        context.ShowsAll host (seen ∪ host.includedNames first) second := by
  induction first generalizing seen with
  | nil => simp [ShowsAll]
  | cons entry rest ih =>
      rw [List.cons_append, ShowsAll, ShowsAll, ih, Finset.union_assoc, ← Host.includedNames_append,
        List.singleton_append, and_assoc]

/-- Includes show what they should after some files, and those that they name are seen then. -/
structure Follows (context : IncludeContext) (host : Host) (seen after : Finset String)
    (entries : List (Bool × Node)) : Prop where
  after_eq : after = seen ∪ host.includedNames entries
  shows : context.ShowsAll host seen entries

variable {seen between after : Finset String}

theorem follows_nil : context.Follows host seen seen [] :=
  ⟨(Finset.union_empty seen).symm, trivial⟩

theorem Follows.append {first second : List (Bool × Node)}
    (earlier : context.Follows host seen between first)
    (later : context.Follows host between after second) :
    context.Follows host seen after (first ++ second) := by
  obtain ⟨rfl, shows⟩ := earlier
  refine ⟨?_, showsAll_append.2 ⟨shows, later.shows⟩⟩
  rw [later.after_eq, Host.includedNames_append, Finset.union_assoc]

theorem Follows.subset {entries : List (Bool × Node)}
    (follows : context.Follows host seen after entries) : seen ⊆ after :=
  follows.after_eq ▸ Finset.subset_union_left

/-- An include that names no file shows nothing. -/
theorem follows_of_unnamed {node : Node} (inClass : Bool) (unnamed : host.included? node = none)
    (empty : node.nested = []) : context.Follows host seen seen [(inClass, node)] := by
  refine ⟨?_, ⟨fun _ => empty, fun _ path same => ?_⟩, trivial⟩
  · rw [Host.includedNames_cons, unnamed, Host.includedNames_nil, Option.map_none,
      Option.toFinset_none, Finset.union_empty, Finset.union_empty]
  · cases unnamed.symm.trans same

/-- What comes of entering a file. -/
structure Enters (context : IncludeContext) (host : Host) (visited : List String) (path : String)
    (scope : List String) (inClass : Bool) (nodes : List Node) (last : List String) : Prop where
  follows : context.Follows host (insert (host.canonical path) visited.toFinset) last.toFinset
    (inclusionsAll inClass nodes)
  nothing : host.canonical path ∈ visited → nodes = []
  file : inClass = false → host.canonical path ∉ visited →
    ∃ file, context.scanFile host path = .ok file ∧ shutAll nodes = underAll scope file.nodes

/-- Scripts are entered rightly as long as few enough names of entries are left. -/
def EntersAll (context : IncludeContext) (host : Host) (depth : Nat)
    (enter : List String → String → List String → Bool → Option (List Node × List String)) : Prop :=
  ∀ {visited path scope inClass nodes last text}, readScript host path = .ok text →
    host.unseen visited.toFinset < depth →
      enter visited path scope inClass = some (nodes, last) →
        context.Enters host visited path scope inClass nodes last

variable {enter : List String → String → List String → Bool → Option (List Node × List String)}
  {depth : Nat} {script path : String} {visited scope : List String} {inClass : Bool}
  {walk last : Walk} {nodes linked : List Node} {text : List Char}

/-- An include that names a file shows what was found in it, before the includes there. -/
theorem Enters.follows_include {after : List String}
    (enters : context.Enters host visited path scope inClass nodes after)
    (file : host.files.isDirectory path = false) (directive : Directive) (again : Bool)
    (location : Location) :
    context.Follows host visited.toFinset after.toFinset (inclusions inClass
      (.mk (.inclusion directive again (some path)) scope location nodes)) := by
  have included : host.included?
      (.mk (.inclusion directive again (some path)) scope location nodes) = some path :=
    if_neg (Bool.eq_false_iff.1 file)
  rw [inclusions_inclusion, ← List.singleton_append]
  refine Follows.append ⟨rfl, ⟨fun seen => ?_, fun outside _ same fresh => ?_⟩, trivial⟩ ?_
  · exact enters.nothing (List.mem_toFinset.1 (seen path included))
  · cases included.symm.trans same
    exact enters.file outside (mt List.mem_toFinset.2 fresh)
  · rw [Host.includedNames_cons, included, Host.includedNames_nil, Finset.union_empty,
      Option.map_some, Option.toFinset_some, Finset.union_comm, ← Finset.insert_eq]
    exact enters.follows

/-- What comes of resolving the includes in nodes. -/
theorem follows_linkAll (enters : context.EntersAll host depth enter)
    (room : host.unseen walk.visited.toFinset < depth)
    (found : Node.linkAll (context.follower host script enter) inClass walk nodes =
      some (linked, last)) :
    context.Follows host walk.visited.toFinset last.visited.toFinset
      (inclusionsAll inClass linked) := by
  induction nodes using Node.forest_induction generalizing inClass walk last linked with
  | nil =>
      obtain ⟨rfl, rfl⟩ := Follower.linkAll_nil.1 found
      rw [inclusionsAll]
      exact follows_nil
  | cons kind scope location nested rest inside later =>
      obtain ⟨first, between, others, links, tail, rfl⟩ := Follower.linkAll_cons.1 found
      have head : context.Follows host walk.visited.toFinset between.visited.toFinset
          (inclusions inClass first) := by
        cases links with
        | unresolved fails =>
            rw [inclusions_inclusion, inclusionsAll]
            exact follows_of_unnamed inClass rfl rfl
        | directory names directory =>
            rw [inclusions_inclusion, inclusionsAll]
            exact follows_of_unnamed inClass (if_pos directory) rfl
        | file names file entered =>
            obtain ⟨text, read⟩ := exists_readScript (names_of_follower names) file
            exact (enters read room entered).follows_include file _ _ location
        | other other within =>
            rw [inclusions, other]
            exact inside room within
      rw [inclusionsAll]
      exact head.append (later ((host.unseen_le head.subset).trans_lt room) tail)

/-- A text is scanned on its own, and then the includes in what was found are resolved. -/
theorem scanText_eq_some_iff {source : Source} {after : List String} :
    context.scanText host enter visited path text scope inClass = some (source, nodes, after) ↔
      source = Source.ofText context.version path text ∧ ∃ outline base,
        source.scan? 0 source.size scope inClass = some outline ∧
          Node.linkAll (context.follower host path enter) inClass
            ⟨visited, context.initialBase path⟩ outline = some (nodes, ⟨after, base⟩) := by
  simp only [scanText, Option.pure_def, Option.bind_eq_bind, Option.bind_eq_some_iff,
    Option.some.injEq, Prod.mk.injEq, Prod.exists]
  constructor
  · rintro ⟨outline, scanned, _, ⟨after, base⟩, linked, rfl, rfl, rfl⟩
    exact ⟨rfl, outline, base, scanned, linked⟩
  · rintro ⟨rfl, outline, base, scanned, linked⟩
    exact ⟨outline, scanned, _, _, linked, rfl, rfl, rfl⟩

/-- The nodes of a text whose outline was scanned outside of classes are those of the text scanned on
its own, with more names around them, whatever was entered. -/
theorem exists_scanSource {outline : List Node} {last : Walk}
    (whole : (Source.ofText context.version path text).scan? 0
      (Source.ofText context.version path text).size scope false = some outline)
    (linked : Node.linkAll (context.follower host path enter) inClass
      ⟨visited, context.initialBase path⟩ outline = some (nodes, last)) :
    ∃ file, context.scanSource host path text = .ok file ∧
      shutAll nodes = underAll scope file.nodes := by
  -- The outline under the scope is the outline of the text alone, with more names around it.
  have below := (Source.ofText context.version path text).scan?_under scope 0
    (Source.ofText context.version path text).size [] false
  rw [List.append_nil, whole] at below
  obtain ⟨alone, scanned, rfl⟩ := Option.map_eq_some_iff.1 below.symm
  obtain ⟨⟨nodes, _, _⟩, stayed⟩ : ∃ stayed, Node.linkAll (context.follower host path stay) false
      ⟨[], context.initialBase path⟩ alone = some stayed :=
    Follower.exists_linkAll (fun _ _ _ _ => ⟨_, rfl⟩) alone false _
  have emptied := Follower.linkAll_staying linked []
  have moved := (context.follower host path enter).linkAll_under scope inClass stayed
  obtain ⟨same, -⟩ := Prod.mk.inj (Option.some.inj (emptied.symm.trans moved))
  refine ⟨⟨Source.ofText context.version path text, nodes⟩, ?_, same⟩
  rw [scanSource, scanText_eq_some_iff.2 ⟨rfl, alone, _, scanned, stayed⟩]

/-- What comes of scanning a text and entering the files that it includes: outside of classes, its
nodes are those of the text scanned on its own, with more names around them. -/
theorem follows_scanText (enters : context.EntersAll host depth enter)
    (room : host.unseen visited.toFinset < depth) {source : Source} {after : List String}
    (found : context.scanText host enter visited path text scope inClass =
      some (source, nodes, after)) :
    context.Follows host visited.toFinset after.toFinset (inclusionsAll inClass nodes) ∧
      (inClass = false → ∃ file, context.scanSource host path text = .ok file ∧
        shutAll nodes = underAll scope file.nodes) := by
  obtain ⟨rfl, outline, base, whole, linked⟩ := scanText_eq_some_iff.1 found
  refine ⟨follows_linkAll enters room linked, ?_⟩
  rintro rfl
  exact exists_scanSource whole linked

/-- Scripts are entered rightly through as many nested includes as there are names of entries. -/
theorem entersAll (context : IncludeContext) (host : Host) (depth : Nat) :
    context.EntersAll host depth (context.enter host depth) := by
  -- Every script that is entered takes a name from those left, so the depth never runs out.
  induction depth with
  | zero => exact fun _ room _ => absurd room (Nat.not_lt_zero _)
  | succ depth ih =>
      intro visited path scope inClass nodes last text read room entered
      rw [enter] at entered
      dsimp only at entered
      split at entered
      · next seen =>
        cases entered
        have seen : host.canonical path ∈ visited := List.contains_iff_mem.1 seen
        refine ⟨?_, fun _ => rfl, fun _ other => absurd seen other⟩
        rw [inclusionsAll, Finset.insert_eq_self.2 (List.mem_toFinset.2 seen)]
        exact follows_nil
      · next other =>
        rw [read] at entered
        have other : host.canonical path ∉ visited := mt List.contains_iff_mem.2 other
        simp only [Option.pure_def, Option.bind_eq_bind, Option.bind_eq_some_iff, Option.some.injEq,
          Prod.mk.injEq, Prod.exists] at entered
        obtain ⟨source, _, _, found, rfl, rfl⟩ := entered
        have less : host.unseen (host.canonical path :: visited).toFinset < depth := by
          obtain ⟨bytes, held⟩ := exists_read_of_readScript read
          rw [List.toFinset_cons]
          exact (Host.unseen_insert_lt (Host.canonical_mem_entryNames held)
            (mt List.mem_toFinset.1 other)).trans_le (Nat.le_of_lt_succ room)
        obtain ⟨follows, alone⟩ := follows_scanText ih less found
        rw [List.toFinset_cons] at follows
        refine ⟨follows, fun seen => absurd seen other, fun outside _ => ?_⟩
        obtain ⟨file, scanned, same⟩ := alone outside
        refine ⟨file, ?_, same⟩
        rw [scanFile, read]
        exact scanned

/-- What an include shows in a text that was searched. -/
theorem shows_of_findInSource (found : context.findInSource host path text = .ok nodes)
    {before after : List (Bool × Node)} {node : Node}
    (split : inclusionsAll false nodes = before ++ (inClass, node) :: after) :
    context.Shows host (insert (host.canonical path) (host.includedNames before)) inClass node := by
  rw [findInSource] at found
  split at found
  · next scanned =>
    cases found
    obtain ⟨⟨-, shows⟩, -⟩ :=
      follows_scanText (context.entersAll host _) (host.unseen_lt _) scanned
    rw [split] at shows
    have shown := (showsAll_append.1 shows).2.1
    rwa [List.toFinset_cons, List.toFinset_nil, Finset.insert_union, Finset.empty_union] at shown
  · cases found

/-! ## Scans that succeed -/

theorem exists_scanText (host : Host) {outline : List Node}
    (scanned : (Source.ofText context.version path text).scan? 0
      (Source.ofText context.version path text).size scope inClass = some outline)
    (enters : ∀ visited path scope inClass, ∃ entered,
      enter visited path scope inClass = some entered)
    (visited : List String) :
    ∃ found, context.scanText host enter visited path text scope inClass = some found := by
  obtain ⟨⟨nodes, after, base⟩, linked⟩ : ∃ linked, Node.linkAll
      (context.follower host path enter) inClass ⟨visited, context.initialBase path⟩ outline =
        some linked :=
    Follower.exists_linkAll enters outline inClass _
  exact ⟨_, scanText_eq_some_iff.2 ⟨rfl, outline, base, scanned, linked⟩⟩

/-- Where all scripts can be scanned on their own, every file can be entered. -/
theorem exists_enter
    (scans : ∀ path text, readScript host path = .ok text → ∀ scope inClass, ∃ outline,
      (Source.ofText context.version path text).scan? 0
        (Source.ofText context.version path text).size scope inClass = some outline)
    (depth : Nat) (visited : List String) (path : String) (scope : List String) (inClass : Bool) :
    ∃ entered, context.enter host depth visited path scope inClass = some entered := by
  induction depth generalizing visited path scope inClass with
  | zero => exact ⟨_, rfl⟩
  | succ depth ih =>
      rw [enter]
      dsimp only
      split
      · exact ⟨_, rfl⟩
      · split
        · exact ⟨_, rfl⟩
        · next text read =>
          obtain ⟨outline, whole⟩ := scans path text read scope inClass
          obtain ⟨found, scanned⟩ := exists_scanText host whole ih (host.canonical path :: visited)
          rw [scanned]
          exact ⟨_, rfl⟩

theorem exists_scan?_ofText {text : List Char}
    (closable : (Source.ofText context.version path text).Closable text) (scope : List String)
    (inClass : Bool) : ∃ outline, (Source.ofText context.version path text).scan? 0
      (Source.ofText context.version path text).size scope inClass = some outline :=
  have reads := reads_ofText context.version path text
  exists_scan? reads closable scope inClass reads.between_zero reads.between_size

/-- Following includes does not change what is seen in a file.  The search of a text and of what it
includes succeeds if the blocks of the text and of all scripts end between characters.  The nodes
that it finds, with the includes in them emptied, are those of the text scanned on its own.  An
include outside of classes shows, with the includes in it emptied, the nodes of its file scanned on
its own, below the names around the include, if the file is neither the one that is searched nor one
that an include before it names; an include that names no file, or one of these, shows nothing. -/
theorem following_keeps (context : IncludeContext) (host : Host) (path : String)
    (text : List Char) :
    ((Source.ofText context.version path text).Closable text →
      (∀ file script, readScript host file = .ok script →
        (Source.ofText context.version file script).Closable script) →
      ∃ nodes, context.findInSource host path text = .ok nodes) ∧
    ∀ nodes, context.findInSource host path text = .ok nodes →
      (∃ file, context.scanSource host path text = .ok file ∧ shutAll nodes = file.nodes) ∧
      ∀ before inClass node after,
        inclusionsAll false nodes = before ++ (inClass, node) :: after →
          context.Shows host (insert (host.canonical path) (host.includedNames before)) inClass
            node := by
  constructor
  · intro closable others
    obtain ⟨outline, whole⟩ := exists_scan?_ofText closable [] false
    obtain ⟨⟨source, nodes, after⟩, scanned⟩ := exists_scanText host whole
      (exists_enter (fun file script read => exists_scan?_ofText (others file script read))
        (host.files.entries.length + 1)) [host.canonical path]
    refine ⟨nodes, ?_⟩
    rw [findInSource, scanned]
  · intro nodes found
    refine ⟨?_, fun before inClass node after split => shows_of_findInSource found split⟩
    rw [findInSource] at found
    split at found
    · next scanned =>
      cases found
      obtain ⟨file, scanned, same⟩ :=
        (follows_scanText (context.entersAll host _) (host.unseen_lt _) scanned).2 rfl
      exact ⟨file, scanned, same.trans (underAll_nil _)⟩
    · cases found

/-- Surroundings with a library of a given text. -/
def withLibrary (text : String) : Host where
  files := { entries := [(["lib.ahk"], .file (Text.utf8 text.toList))], workingPlace := [] }
  environment := ⟨[]⟩

/-- The context of a main script. -/
def inMain : IncludeContext := ⟨.v2, "main.ahk", none, "/", none⟩

/-- The blocks of scripts that end in ASCII end between characters. -/
theorem closable_of_ofScripts {scripts : List (String × String)}
    (ends : ∀ script ∈ scripts, ∀ c ∈ script.2.toList.getLast?, c.toNat < 0x80)
    (unmarked : ∀ script ∈ scripts, (Text.utf8 script.2.toList).head? ≠ some 0xEF) {file : String}
    {text : List Char} (read : readScript (Host.ofScripts scripts) file = .ok text) :
    (Source.ofText inMain.version file text).Closable text := by
  obtain ⟨bytes, held⟩ := exists_read_of_readScript read
  obtain ⟨place, found⟩ := FileTree.exists_find_of_read held
  obtain ⟨script, member, rfl⟩ : ∃ script ∈ scripts, Text.utf8 script.2.toList = bytes := by
    have there := FileTree.at?_of_find found
    unfold FileTree.at? at there
    split at there
    · cases there
    · obtain ⟨entry, found, same⟩ := Option.map_eq_some_iff.1 there
      obtain ⟨script, member, rfl⟩ := List.mem_map.1 (List.mem_of_find?_eq_some found)
      cases same
      exact ⟨script, member, rfl⟩
  rw [readScript, held] at read
  split at read
  · next failed => cases failed
  · next marked =>
    have unmarked := unmarked script member
    rw [Except.ok.inj marked] at unmarked
    exact absurd rfl unmarked
  · next bytes _ same =>
    cases same
    cases read
    refine .inl ?_
    rw [Text.utf8Lossy_utf8]
    exact ends script member

/-- A text that includes the library into a function. -/
def includingInside : List Char := "G() \x7b\n#Include lib.ahk\n\x7d\n".toList

/-- A function is included into a function. -/
theorem following_keeps_function :
    ∃ nodes node after file,
      inMain.findInSource (withLibrary "F() \x7b\n\x7d\n") "main.ahk" includingInside = .ok nodes ∧
      inclusionsAll false nodes = (false, node) :: after ∧ node.scope = ["G"] ∧
      node.nested ≠ [] ∧
      inMain.scanFile (withLibrary "F() \x7b\n\x7d\n") "lib.ahk" = .ok file ∧
      shutAll node.nested = underAll ["G"] file.nodes := by
  obtain ⟨returns, shows⟩ :=
    following_keeps inMain (withLibrary "F() \x7b\n\x7d\n") "main.ahk" includingInside
  have ends : ∀ c ∈ includingInside.getLast?, c.toNat < 0x80 := by
    unfold includingInside
    simp
  have library : withLibrary "F() \x7b\n\x7d\n" = Host.ofScripts [("lib.ahk", "F() \x7b\n\x7d\n")] := rfl
  obtain ⟨nodes, found⟩ := returns (.inl ends) fun file script read =>
    closable_of_ofScripts (by simp) (by decide +kernel) (library ▸ read)
  have looks : (inMain.findInSource (withLibrary "F() \x7b\n\x7d\n") "main.ahk"
      includingInside).toOption.any fun nodes => (inclusionsAll false nodes).head?.any fun entry =>
        !entry.1 && entry.2.scope == ["G"] && !entry.2.nested.isEmpty &&
          (withLibrary "F() \x7b\n\x7d\n").included? entry.2 == some "lib.ahk" := by
    decide +kernel
  rw [found, Except.toOption, Option.any_some] at looks
  cases listed : inclusionsAll false nodes with
  | nil =>
      rw [listed] at looks
      cases looks
  | cons entry rest =>
      obtain ⟨inClass, node⟩ := entry
      rw [listed, List.head?_cons, Option.any_some] at looks
      simp only [Bool.and_eq_true, Bool.not_eq_true', beq_iff_eq] at looks
      obtain ⟨⟨⟨rfl, scope⟩, nonempty⟩, included⟩ := looks
      have fresh : (withLibrary "F() \x7b\n\x7d\n").canonical "lib.ahk" ∉
          insert ((withLibrary "F() \x7b\n\x7d\n").canonical "main.ahk") (∅ : Finset String) := by
        decide +kernel
      obtain ⟨file, scanned, same⟩ :=
        ((shows nodes found).2 [] false node rest listed).file rfl _ included fresh
      exact ⟨nodes, node, rest, file, found, listed, scope,
        List.isEmpty_eq_false_iff.1 nonempty, scanned, scope ▸ same⟩

/-- A block that is left open in an included file is cut inside the last character: the text can be
scanned on its own, but not with the file. -/
theorem following_stuck :
    (∃ file, inMain.scanSource (withLibrary "F() \x7b\né") "main.ahk"
      "#Include lib.ahk\n".toList = .ok file) ∧
    inMain.findInSource (withLibrary "F() \x7b\né") "main.ahk" "#Include lib.ahk\n".toList =
      .error .splitCharacter := by
  have scans : (inMain.scanSource (withLibrary "F() \x7b\né") "main.ahk"
      "#Include lib.ahk\n".toList).toOption.any fun _ => true := by decide +kernel
  have stuck : ((inMain.findInSource (withLibrary "F() \x7b\né") "main.ahk"
      "#Include lib.ahk\n".toList).toOption.isNone) = true := by decide +kernel
  obtain ⟨file, scanned, -⟩ := exists_ok_of_any scans
  refine ⟨⟨file, scanned⟩, ?_⟩
  rw [findInSource] at stuck ⊢
  split at stuck
  · cases stuck
  · rfl

end IncludeContext
end DebugBridge
