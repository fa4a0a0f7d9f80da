import DebugBridge.Proofs.Script.Linking
import DebugBridge.Proofs.Script.Nesting
import DebugBridge.Proofs.Script.Scan

/-!
# The tree of a file

The nodes of one level follow one another, and each nested node stands in its parent as the blocks
allow.  This holds on every level of a scan, since a scan of the inside of a block is a scan like that
of the file; resolving includes moves no node.
-/

namespace DebugBridge

/-- One node ends before another one starts. -/
def Node.Before (node later : Node) : Prop := node.location.stop ≤ later.location.start

namespace Source

/-- A node whose descendants are in order, each nested in its parent. -/
inductive Tree (source : Source) : Node → Prop
  | mk {kind : Kind} {scope : List String} {location : Location} {nested : List Node}
      (range : location.start ≤ location.stop ∧ location.stop ≤ source.size)
      (ordered : nested.Pairwise Node.Before)
      (opened : nested ≠ [] → ∃ brace, source.OpenedBy kind location brace ∧
        ∀ child ∈ nested, source.Nests brace location child.kind child.location)
      (trees : ∀ child ∈ nested, Tree source child) : Tree source (.mk kind scope location nested)

/-- A construct that a scan from `low` to `limit` may find. -/
def Found (source : Source) (low limit : Nat) (kind : Kind) (location : Location) : Prop :=
  ∃ pos segment inside accessors next, low ≤ pos ∧ pos < limit ∧
    source.segment? pos limit = some segment ∧
    source.Opens pos limit segment ⟨kind, location, inside⟩ accessors next

/-- The nodes of a scan from `low` to `limit`. -/
structure Level (source : Source) (low limit : Nat) (nodes : List Node) : Prop where
  ordered : nodes.Pairwise Node.Before
  found : ∀ node ∈ nodes, source.Found low limit node.kind node.location
  trees : ∀ node ∈ nodes, source.Tree node

section Order

variable {source : Source} {text masked : List Char} (reads : source.Reads text masked)

theorem pairwise_before {nodes : List Node} : nodes.Pairwise Node.Before ↔
    (nodes.map Node.location).Pairwise fun location later => location.stop ≤ later.start := by
  rw [List.pairwise_map]
  rfl

theorem min_le_nextLineStart (index : Nat) :
    min (index + 1) source.size ≤ source.nextLineStart index := by
  unfold nextLineStart
  cases found : source.lineStarts.find? fun start => index < start with
  | none => exact Nat.min_le_right _ _
  | some start =>
      have after := Array.find?_some found
      rw [decide_eq_true_eq] at after
      exact Nat.le_trans (Nat.min_le_left _ _) after

include reads

/-- A scan goes on after what it has found. -/
theorem Opens.range {pos limit next : Nat} {segment : List Char} {opener : Opener}
    {accessors : List Opener} (opens : source.Opens pos limit segment opener accessors next) :
    pos ≤ opener.location.start ∧ opener.location.stop ≤ next := by
  have first : pos ≤ codeStart pos segment := Nat.le_add_right _ _
  cases opens with
  | @comment location stop begins ends located =>
      obtain ⟨start_eq, stop_eq, -⟩ := location?_spec located
      have inside := (location_range reads located).2
      have next := source.min_le_nextLineStart (max (stop - 1) (pos + source.indent pos))
      constructor
      · show pos ≤ location.start
        omega
      · show location.stop ≤ _
        omega
  | @line kind location begins code flat located =>
      obtain ⟨start_eq, stop_eq, -⟩ := location?_spec located
      have code := (reads.between_indent pos).2
      have next := reads.lineEnd_le_nextLineStart pos
      constructor
      · show pos ≤ location.start
        omega
      · show location.stop ≤ _
        omega
  | @arrow kind location stop index flat _ last further located =>
      obtain ⟨start_eq, stop_eq, -⟩ := location?_spec located
      constructor
      · show pos ≤ location.start
        omega
      · show location.stop ≤ _
        omega
  | block lined byte le reached located | property lined byte le reached located =>
      obtain ⟨start_eq, stop_eq⟩ := location_of_block byte le located
      exact ⟨by rw [start_eq]; exact first, Nat.le_of_eq stop_eq⟩

theorem AccessorAt.range {start resume : Nat} {accessor : Opener} (begins : start ∈ source.lineStarts)
    (found : source.AccessorAt start accessor resume) :
    start ≤ accessor.location.start ∧ accessor.location.start ≤ accessor.location.stop ∧
      accessor.location.stop ≤ resume := by
  cases found with
  | @arrow kind location flat located =>
      obtain ⟨start_eq, stop_eq, -⟩ := location?_spec located
      have ordered := (location_range reads located).1
      have code := (reads.between_indent start).2
      rw [reads.lineStart_of_mem begins] at code
      have next := reads.lineEnd_le_nextLineStart start
      refine ⟨by rw [start_eq]; omega, ordered, ?_⟩
      show location.stop ≤ _
      omega
  | @block kind location brace lined byte first reached located =>
      obtain ⟨start_eq, stop_eq⟩ := location_of_block byte first located
      have inside := location_range reads located
      have next := source.min_le_nextLineStart
        (source.blockEnd brace (source.indent start) - 1)
      refine ⟨by rw [start_eq]; omega, inside.1, ?_⟩
      show location.stop ≤ _
      omega

/-- Accessors follow one another, each where a line starts. -/
theorem accessors_of_accessorsFrom {starts : List Nat} {resume : Nat} {found : List Opener}
    (begin : ∀ start ∈ starts, start ∈ source.lineStarts)
    (eq : source.accessorsFrom resume starts = some found) :
    (found.map Opener.location).Pairwise (fun location later => location.stop ≤ later.start) ∧
      ∀ accessor ∈ found, resume ≤ accessor.location.start ∧
        ∃ start ∈ starts, ∃ next, source.AccessorAt start accessor next := by
  induction starts generalizing resume found with
  | nil =>
      cases eq
      exact ⟨.nil, by simp⟩
  | cons start rest ih =>
      rw [List.forall_mem_cons] at begin
      have go {resume : Nat} {found : List Opener}
          (eq : source.accessorsFrom resume rest = some found) :
          (found.map Opener.location).Pairwise (fun location later => location.stop ≤ later.start) ∧
            ∀ accessor ∈ found, resume ≤ accessor.location.start ∧
              ∃ start' ∈ start :: rest, ∃ next, source.AccessorAt start' accessor next := by
        obtain ⟨ordered, at_⟩ := ih begin.2 eq
        refine ⟨ordered, fun accessor member => ?_⟩
        obtain ⟨le, start', place, found⟩ := at_ accessor member
        exact ⟨le, start', List.mem_cons_of_mem _ place, found⟩
      rw [accessorsFrom] at eq
      split at eq
      · exact go eq
      next after =>
        simp only [Option.pure_def, Option.bind_eq_bind, Option.bind_eq_some_iff] at eq
        obtain ⟨step, head, eq⟩ := eq
        split at eq
        · exact go eq
        next accessor further =>
          simp only [Option.bind_eq_some_iff, Option.some.injEq] at eq
          obtain ⟨others, tail, rfl⟩ := eq
          have here := accessorAt_of_accessor? reads begin.1 head
          obtain ⟨first, whole, last⟩ := AccessorAt.range reads begin.1 here
          obtain ⟨ordered, later⟩ := go tail
          constructor
          · refine .cons (fun location member => ?_) ordered
            obtain ⟨other, place, rfl⟩ := List.mem_map.1 member
            exact Nat.le_trans last (later other place).1
          · intro other member
            rcases List.mem_cons.1 member with rfl | member
            · exact ⟨by omega, start, List.mem_cons_self, further, here⟩
            · obtain ⟨le, found⟩ := later other member
              exact ⟨by omega, found⟩

/-- The accessors of a property stand in its block, one after another. -/
theorem accessors_of_accessors? {brace stop : Nat} {found : List Opener}
    (eq : source.accessors? brace stop = some found) :
    (found.map Opener.location).Pairwise (fun location later => location.stop ≤ later.start) ∧
      ∀ accessor ∈ found, ∃ start ∈ source.lineStarts, ∃ next, brace < start ∧
        source.lineOf start < source.lineOf (stop - 1) ∧ source.AccessorAt start accessor next := by
  have begin : ∀ start ∈ source.lineStarts.toList.filter (fun start =>
      brace < start && source.lineOf start < source.lineOf (stop - 1)), start ∈ source.lineStarts :=
    fun start member => Array.mem_toList_iff.1 (List.mem_filter.1 member).1
  obtain ⟨ordered, at_⟩ := accessors_of_accessorsFrom reads begin eq
  refine ⟨ordered, fun accessor member => ?_⟩
  obtain ⟨-, start, place, next, found⟩ := at_ accessor member
  have inside := (List.mem_filter.1 place).2
  rw [Bool.and_eq_true, decide_eq_true_eq, decide_eq_true_eq] at inside
  exact ⟨start, begin start place, next, inside.1, inside.2, found⟩

end Order

/-! ## Scans -/

section Scans

variable {source : Source} {text masked : List Char} {low limit : Nat} {nodes : List Node}

theorem level_nil : source.Level low limit [] := ⟨.nil, by simp, by simp⟩

theorem Level.earlier {later : Nat} (level : source.Level later limit nodes) (le : low ≤ later) :
    source.Level low limit nodes where
  ordered := level.ordered
  found node member := by
    obtain ⟨pos, segment, inside, accessors, next, after, found⟩ := level.found node member
    exact ⟨pos, segment, inside, accessors, next, Nat.le_trans le after, found⟩
  trees := level.trees

variable (reads : source.Reads text masked)

include reads

theorem Found.le {kind : Kind} {location : Location}
    (found : source.Found low limit kind location) : low ≤ location.start := by
  obtain ⟨pos, segment, inside, accessors, next, after, -, -, opens⟩ := found
  exact Nat.le_trans after (opens.range reads).1

/-- A node with what a scan of its block has found is a tree. -/
theorem tree_of_block {kind : Kind} {scope : List String} {location : Location} {brace : Nat}
    (opened : source.OpenedBy kind location brace)
    (range : location.start ≤ location.stop ∧ location.stop ≤ source.size)
    (level : source.Level (brace + 1) (location.stop - 1) nodes) :
    source.Tree (.mk kind scope location nodes) := by
  refine .mk range level.ordered (fun _ => ⟨brace, opened, fun child member => ?_⟩) level.trees
  obtain ⟨pos, segment, inside, accessors, next, after, before, looked, opens⟩ :=
    level.found child member
  exact nests_of_opens reads opened after before looked opens

/-- An accessor with what is found in its block is a tree. -/
theorem tree_of_accessor {scope : List String} {accessor : Opener} {start resume : Nat} {node : Node}
    (begins : start ∈ source.lineStarts) (found : source.AccessorAt start accessor resume)
    (enter : ∀ (range : Nat × Nat) scope nodes, start < range.1 →
      source.scan? range.1 range.2 scope false = some nodes → source.Level range.1 range.2 nodes)
    (entered : source.accessorNode? scope accessor = some node) :
    source.Tree node ∧ node.kind = accessor.kind ∧ node.location = accessor.location := by
  simp only [accessorNode?, Option.pure_def, Option.bind_eq_bind, Option.bind_eq_some_iff,
    Option.some.injEq] at entered
  obtain ⟨inside, within, rfl⟩ := entered
  refine ⟨?_, rfl, rfl⟩
  cases found with
  | arrow flat located =>
      cases within
      exact .mk (location_range reads located) .nil (fun none => absurd rfl none) (by simp)
  | @block kind location brace lined byte first reached located =>
      obtain ⟨start_eq, stop_eq⟩ := location_of_block byte first located
      have code := (reads.between_indent start).2
      rw [reads.lineStart_of_mem begins] at code
      have margin : source.indent (start + source.indent start) = source.indent start :=
        indent_of_same_line reads (by rw [reads.lineStart_of_mem begins]; omega) code
      have opened : source.OpenedBy kind location brace :=
        ⟨lined, byte, by rw [start_eq]; exact first, by rw [start_eq, margin]; exact stop_eq⟩
      refine tree_of_block reads opened (location_range reads located) ?_
      rw [stop_eq]
      exact enter _ _ _ (by show start < brace + 1; omega) within

omit reads in
/-- The nodes of accessors stand where the accessors do. -/
theorem nodes_of_mapM {scope : List String} {accessors : List Opener}
    (eq : accessors.mapM (source.accessorNode? scope) = some nodes) :
    nodes.map Node.location = accessors.map Opener.location ∧
      ∀ node ∈ nodes, ∃ accessor ∈ accessors, source.accessorNode? scope accessor = some node := by
  induction accessors generalizing nodes with
  | nil =>
      cases eq
      exact ⟨rfl, by simp⟩
  | cons accessor accessors ih =>
      simp only [List.mapM_cons, Option.pure_def, Option.bind_eq_bind, Option.bind_eq_some_iff,
        Option.some.injEq] at eq
      obtain ⟨node, head, rest, tail, rfl⟩ := eq
      obtain ⟨same, each⟩ := ih tail
      constructor
      · have place : node.location = accessor.location := by
          simp only [accessorNode?, Option.pure_def, Option.bind_eq_bind, Option.bind_eq_some_iff,
            Option.some.injEq] at head
          obtain ⟨inside, -, rfl⟩ := head
          rfl
        rw [List.map_cons, List.map_cons, same, place]
      · intro other member
        rcases List.mem_cons.1 member with rfl | member
        · exact ⟨accessor, List.mem_cons_self, head⟩
        · obtain ⟨accessor', place, found⟩ := each other member
          exact ⟨accessor', List.mem_cons_of_mem _ place, found⟩

/-- A construct with what is found in it is a tree. -/
theorem tree_of_opens {pos next : Nat} {segment : List Char} {opener : Opener}
    {accessors : List Opener} {scope inner : List String} {inside nested : List Node}
    (before : pos < limit) (looked : source.segment? pos limit = some segment)
    (opens : source.Opens pos limit segment opener accessors next)
    (enter : ∀ (range : Nat × Nat) scope inClass nodes, pos < range.1 →
      source.scan? range.1 range.2 scope inClass = some nodes → source.Level range.1 range.2 nodes)
    (entered : source.within? opener.inside inner opener.kind.isClass = some inside)
    (accessed : accessors.mapM (source.accessorNode? inner) = some nested) :
    source.Tree (.mk opener.kind scope opener.location (inside ++ nested)) := by
  have leaf {kind : Kind} {location : Location}
      (range : location.start ≤ location.stop ∧ location.stop ≤ source.size) :
      source.Tree (.mk kind scope location ([] ++ [])) :=
    .mk range .nil (fun none => absurd rfl none) (by simp)
  obtain ⟨low, high, margin⟩ := codeStart_of_segment reads before looked
  cases opens with
  | comment begins ends located | line begins code flat located
  | arrow flat first last further located =>
      cases entered
      cases accessed
      exact leaf (location_range reads located)
  | @block kind location brace lined byte first reached located =>
      cases accessed
      obtain ⟨start_eq, stop_eq⟩ := location_of_block byte first located
      have opened : source.OpenedBy kind location brace :=
        ⟨lined, byte, by rw [start_eq]; exact first, by rw [start_eq, margin]; exact stop_eq⟩
      have level : source.Level (brace + 1) (location.stop - 1) inside := by
        rw [stop_eq]
        exact enter _ _ _ _ (by show pos < brace + 1; omega) entered
      have tree : source.Tree (.mk kind scope location inside) :=
        tree_of_block reads opened (location_range reads located) level
      rwa [← List.append_nil inside] at tree
  | @property kind location brace accessors lined byte first reached located found =>
      cases entered
      obtain ⟨start_eq, stop_eq⟩ := location_of_block byte first located
      obtain ⟨ordered, at_⟩ := accessors_of_accessors? reads found
      obtain ⟨same, each⟩ := nodes_of_mapM accessed
      have opened : source.OpenedBy kind location brace :=
        ⟨lined, byte, by rw [start_eq]; exact first, by rw [start_eq, margin]; exact stop_eq⟩
      have child (node : Node) (member : node ∈ nested) :
          source.Tree node ∧ source.Nests brace location node.kind node.location := by
        obtain ⟨accessor, place, entered⟩ := each node member
        obtain ⟨start, begins, next, after, inside, found⟩ := at_ accessor place
        obtain ⟨tree, kind_eq, location_eq⟩ := tree_of_accessor reads begins found
          (fun range scope nodes later => enter range scope false nodes (by omega)) entered
        rw [kind_eq, location_eq]
        rw [← stop_eq] at inside
        exact ⟨tree, nests_of_accessorAt reads begins after inside found⟩
      exact .mk (location_range reads located) (pairwise_before.2 (same ▸ ordered))
        (fun _ => ⟨brace, opened, fun node member => (child node member).2⟩)
        fun node member => (child node member).1

/-- What a scan finds is a level of trees. -/
theorem level_of_scan? {pos limit : Nat} {scope : List String} {inClass : Bool} {nodes : List Node}
    (found : source.scan? pos limit scope inClass = some nodes) : source.Level pos limit nodes := by
  refine scan?_induction (P := fun pos limit _ _ nodes => source.Level pos limit nodes)
    (fun _ => level_nil) (fun _ _ further _ level => level.earlier (Nat.le_of_lt further)) ?_ found
  intro pos limit next scope inClass opener accessors inside nested others inFile turn entered accessed
    enter further _ level
  obtain ⟨segment, looked, opens⟩ := opens_of_found reads inFile.1 turn
  have tree : source.Tree (.mk opener.kind scope opener.location (inside ++ nested)) :=
    tree_of_opens reads inFile.1 looked opens enter entered accessed
  obtain ⟨first, last⟩ := opens.range reads
  refine ⟨.cons (fun later member => ?_) level.ordered, ?_, ?_⟩
  · exact Nat.le_trans last ((level.found later member).le reads)
  · rw [List.forall_mem_cons]
    exact ⟨⟨pos, segment, _, accessors, next, Nat.le_refl _, inFile.1, looked, opens⟩,
      (level.earlier (Nat.le_of_lt further)).found⟩
  · exact List.forall_mem_cons.2 ⟨tree, level.trees⟩

end Scans

/-! ## Resolved includes -/

section Links

variable {source : Source} {follower : Follower}

/-- Two nodes that differ at most in what an include directive resolved to. -/
structure Alike (node other : Node) : Prop where
  location_eq : other.location = node.location
  braceLine_eq : other.kind.braceLine? = node.kind.braceLine?
  skip_iff : other.kind = .skip ↔ node.kind = .skip

theorem Nests.alike {brace : Nat} {parent : Location} {node other : Node} (alike : Alike node other)
    (nests : source.Nests brace parent node.kind node.location) :
    source.Nests brace parent other.kind other.location := by
  obtain ⟨location_eq, braceLine_eq, skip_iff⟩ := alike
  obtain ⟨after, before, inside⟩ := nests
  rw [location_eq]
  refine ⟨after, before, fun keeps => inside (keeps.imp_right ?_)⟩
  rintro ⟨settles, visible, wide⟩
  rw [skip_iff] at visible
  rw [braceLine_eq] at wide
  exact ⟨settles, visible, wide⟩

/-- Where no file is entered, linking resolves an include and keeps every other node. -/
theorem link_cases
    (stays : ∀ visited path scope inClass,
      follower.enter visited path scope inClass = some ([], visited))
    {kind : Kind} {scope : List String} {location : Location} {nested : List Node} {inClass : Bool}
    {walk walk' : Walk} {other : Node}
    (links : follower.Links inClass walk (.mk kind scope location nested) other walk') :
    (∃ directive again resolved path, kind = .inclusion directive again resolved ∧
      other = .mk (.inclusion directive again path) scope location []) ∨
    ∃ inner, Node.linkAll follower kind.isClass walk nested = some (inner, walk') ∧
      other = .mk kind scope location inner := by
  cases links with
  | unresolved fails => exact .inl ⟨_, _, _, none, rfl, rfl⟩
  | @directory _ _ _ _ _ _ path names directory => exact .inl ⟨_, _, _, some path, rfl, rfl⟩
  | @file _ _ _ _ _ _ _ path _ names file enters =>
      rw [stays] at enters
      cases enters
      exact .inl ⟨_, _, _, some path, rfl, rfl⟩
  | other other inside => exact .inr ⟨_, inside, rfl⟩

/-- Where no file is entered, trees stay trees when the includes in them are resolved. -/
theorem trees_linkAll
    (stays : ∀ visited path scope inClass,
      follower.enter visited path scope inClass = some ([], visited))
    (nodes : List Node) {inClass : Bool} {walk walk' : Walk} {others : List Node}
    (trees : ∀ node ∈ nodes, source.Tree node)
    (linked : Node.linkAll follower inClass walk nodes = some (others, walk')) :
    (∀ other ∈ others, source.Tree other) ∧
      others.map Node.location = nodes.map Node.location ∧
      ∀ other ∈ others, ∃ node ∈ nodes, Alike node other := by
  induction nodes using Node.forest_induction generalizing inClass walk walk' others with
  | nil =>
      obtain ⟨rfl, rfl⟩ := Follower.linkAll_nil.1 linked
      exact ⟨by simp, rfl, by simp⟩
  | cons kind scope location nested rest inside later =>
      obtain ⟨other, between, others, links, tail, rfl⟩ := Follower.linkAll_cons.1 linked
      rw [List.forall_mem_cons] at trees
      obtain ⟨tree, alike⟩ : source.Tree other ∧ Alike (.mk kind scope location nested) other := by
        obtain ⟨range, ordered, opened, below⟩ := trees.1
        rcases link_cases stays links with ⟨directive, again, resolved, path, rfl, rfl⟩ |
          ⟨inner, within, rfl⟩
        · exact ⟨.mk range .nil (fun none => absurd rfl none) (by simp), rfl, rfl,
            by simp [Node.kind]⟩
        · obtain ⟨trees', same, each⟩ := inside below within
          refine ⟨.mk range (pairwise_before.2 (same ▸ pairwise_before.1 ordered)) ?_ trees',
            rfl, rfl, Iff.rfl⟩
          intro nonempty
          have nonempty' : nested ≠ [] := by
            rintro rfl
            exact nonempty (List.map_eq_nil_iff.1 same)
          obtain ⟨brace, openedBy, nests⟩ := opened nonempty'
          refine ⟨brace, openedBy, fun other member => ?_⟩
          obtain ⟨node, place, alike⟩ := each other member
          exact (nests node place).alike alike
      obtain ⟨trees', same, each⟩ := later trees.2 tail
      refine ⟨List.forall_mem_cons.2 ⟨tree, trees'⟩, ?_, List.forall_mem_cons.2 ⟨?_, ?_⟩⟩
      · rw [List.map_cons, List.map_cons, same, alike.location_eq]
      · exact ⟨_, List.mem_cons_self, alike⟩
      · intro other' member
        obtain ⟨node', place, alike'⟩ := each other' member
        exact ⟨node', List.mem_cons_of_mem _ place, alike'⟩

end Links

end Source

namespace IncludeContext

open Source

theorem exists_ok_of_any {ε α : Type} {result : Except ε α} {p : α → Bool}
    (holds : result.toOption.any p) : ∃ found, result = .ok found ∧ p found := by
  cases result with
  | error _ => cases holds
  | ok found => exact ⟨found, rfl, holds⟩

/-- The nodes of a scanned text are in order, and each is a tree: its descendants are in order, and
every one starts after the brace of its parent and, where it keeps to the block, ends inside it. -/
theorem tree_of_scanSource {context : IncludeContext} {host : Host} {path : String}
    {text : List Char} {file : ScannedFile} (scanned : context.scanSource host path text = .ok file) :
    file.source = .ofText context.version path text ∧ file.nodes.Pairwise Node.Before ∧
      ∀ node ∈ file.nodes, file.source.Tree node := by
  have reads := reads_ofText context.version path text
  unfold scanSource at scanned
  split at scanned
  next source nodes visited found =>
    cases scanned
    simp only [scanText, Option.pure_def, Option.bind_eq_bind, Option.bind_eq_some_iff,
      Option.some.injEq, Prod.mk.injEq, Prod.exists] at found
    obtain ⟨outline, whole, nodes', walk, linked, rfl, rfl, -⟩ := found
    have level := level_of_scan? reads whole
    obtain ⟨trees, same, -⟩ := trees_linkAll (fun _ _ _ _ => rfl) outline level.trees linked
    exact ⟨rfl, pairwise_before.2 (same ▸ pairwise_before.1 level.ordered), trees⟩
  next => cases scanned

/-- A class with a method. -/
theorem tree_of_scanSource_method :
    ∃ file, scanSource ⟨.v2, "a.ahk", none, "/", none⟩ ⟨⟨[], []⟩, ⟨[]⟩⟩ "a.ahk"
        "class A \x7b\n  F() \x7b\n  \x7d\n\x7d\n".toList = .ok file ∧
      file.source = .ofText .v2 "a.ahk" "class A \x7b\n  F() \x7b\n  \x7d\n\x7d\n".toList ∧
      file.nodes.Pairwise Node.Before ∧ ∀ node ∈ file.nodes, file.source.Tree node := by
  have succeeds : (scanSource ⟨.v2, "a.ahk", none, "/", none⟩ ⟨⟨[], []⟩, ⟨[]⟩⟩ "a.ahk"
      "class A \x7b\n  F() \x7b\n  \x7d\n\x7d\n".toList).toOption.any fun _ => true := by
    decide +kernel
  obtain ⟨file, scanned, -⟩ := exists_ok_of_any succeeds
  exact ⟨file, scanned, tree_of_scanSource scanned⟩

/-- In a file of this text, some node ends after its parent. -/
def HasEscapingChild (text : String) : Prop :=
  ∃ file, scanSource ⟨.v2, "a.ahk", none, "/", none⟩ ⟨⟨[], []⟩, ⟨[]⟩⟩ "a.ahk" text.toList = .ok file ∧
    ∃ parent ∈ file.nodes, ∃ child ∈ parent.nested, parent.location.stop < child.location.stop

theorem hasEscapingChild_of_any {text : String}
    (escapes : (scanSource ⟨.v2, "a.ahk", none, "/", none⟩ ⟨⟨[], []⟩, ⟨[]⟩⟩ "a.ahk"
      text.toList).toOption.any fun file => file.nodes.any fun parent => parent.nested.any fun child =>
        parent.location.stop < child.location.stop) : HasEscapingChild text := by
  obtain ⟨file, scanned, found⟩ := exists_ok_of_any escapes
  simp only [List.any_eq_true, decide_eq_true_eq] at found
  exact ⟨file, scanned, found⟩

/-- Children that do not keep to their class reach past it: a comment that closes on its own line,
and a method whose braces never settle. -/
theorem escaping_children :
    HasEscapingChild "class A \x7b\n    /* c */\n    F() \x7b\n    \x7d\n\x7d\n" ∧
      HasEscapingChild
        "class A \x7b\n    F() \x7b\n        x \x7b\n        y \x7b\n\x7d\n    \x7d\n\x7d\n" :=
  ⟨hasEscapingChild_of_any (by decide +kernel), hasEscapingChild_of_any (by decide +kernel)⟩

end IncludeContext
end DebugBridge
