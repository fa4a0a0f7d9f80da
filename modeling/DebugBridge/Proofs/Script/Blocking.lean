import DebugBridge.Proofs.Script.Origin
import DebugBridge.Script.Resolution

/-!
# Lines of a program that hold no breakpoint

A line breakpoint is put on a line of a file that was scanned on its own, where no line of a node of
the file is taken.  These are the nodes that the file has in a program, unless a class body includes
it: there the scan looks for properties too.
-/

namespace DebugBridge

/-! ## Alike forests -/

/-- A kind without the parameters. -/
def Kind.bare : Kind → Kind
  | .function name isStatic _ braceLine => .function name isStatic "" braceLine
  | .property name isStatic _ braceLine => .property name isStatic none braceLine
  | kind => kind

namespace Node

/-- Nodes on the same lines, alike but for parameters, the names around them and what they include. -/
inductive Alike : List Node → List Node → Prop
  | nil : Alike [] []
  | cons {kind kind' : Kind} {scope scope' : List String} {location location' : Location}
      {nested nested' nodes nodes' : List Node} (kinds : kind'.bare = kind.bare)
      (first : location'.first.line = location.first.line)
      (last : location'.last.line = location.last.line)
      (inside : kind.isInclusion = false → Alike nested nested') (rest : Alike nodes nodes') :
      Alike (.mk kind scope location nested :: nodes) (.mk kind' scope' location' nested' :: nodes')

section Alike

variable {kind kind' : Kind} {scope scope' : List String} {location location' : Location}
  {nested nested' nodes nodes' : List Node}

theorem name?_of_bare (kinds : kind'.bare = kind.bare) : kind'.name? = kind.name? := by
  have name?_bare (kind : Kind) : kind.bare.name? = kind.name? := by cases kind <;> rfl
  rw [← name?_bare, kinds, name?_bare]

theorem blockedLines_eq (scope scope' : List String) (kinds : kind'.bare = kind.bare)
    (first : location'.first.line = location.first.line)
    (last : location'.last.line = location.last.line)
    (inner : kind.isInclusion = false → blockedLinesAll nested' = blockedLinesAll nested ∧
      blockedAccessorLines nested' = blockedAccessorLines nested) :
    (mk kind' scope' location' nested').blockedLines = (mk kind scope location nested).blockedLines := by
  have header (braceLine : Option Nat) :
      headerLines location' braceLine = headerLines location braceLine := by
    cases braceLine with
    | none => rfl
    | some brace => rw [headerLines, headerLines, first]
  cases kind with
  | skip =>
      cases kind' <;> cases kinds
      rw [blockedLines, blockedLines, first, last]
  | inclusion directive again resolved =>
      cases kind' <;> cases kinds
      rw [blockedLines, blockedLines, first]
  | classDef name base brace =>
      cases kind' <;> cases kinds
      rw [blockedLines, blockedLines, header, (inner rfl).1]
  | function name isStatic params brace =>
      cases kind' <;> cases kinds
      rw [blockedLines, blockedLines, header, (inner rfl).1]
  | property name isStatic params brace =>
      cases kind' <;> cases kinds
      rw [blockedLines, blockedLines, header, (inner rfl).2]

/-- The same lines are blocked by alike nodes. -/
theorem Alike.blocked (alike : Alike nodes nodes') :
    blockedLinesAll nodes' = blockedLinesAll nodes ∧
      blockedAccessorLines nodes' = blockedAccessorLines nodes ∧
        nodes'.map name? = nodes.map name? := by
  induction alike with
  | nil => exact ⟨rfl, rfl, rfl⟩
  | @cons kind kind' scope scope' location location' nested nested' nodes nodes' kinds first last
      inside rest ihInside ihRest =>
      have here := blockedLines_eq scope scope' kinds first last
        fun other => ⟨(ihInside other).1, (ihInside other).2.1⟩
      have name_eq : name? (mk kind' scope' location' nested') = name? (mk kind scope location nested) :=
        name?_of_bare kinds
      obtain ⟨lines, accessors, names⟩ := ihRest
      -- Whether an accessor counts depends on the names of the later ones alone.
      have any_eq (list : List Node) (isGetter : Bool) :
          (list.any fun node => (node.name? == some "get") == isGetter) =
            (list.map name?).any fun name => (name == some "get") == isGetter := by
        rw [List.any_map]
        rfl
      refine ⟨by rw [blockedLinesAll, blockedLinesAll, here, lines], ?_,
        by rw [List.map_cons, List.map_cons, name_eq, names]⟩
      rw [blockedAccessorLines, blockedAccessorLines]
      dsimp only
      rw [any_eq, any_eq, names, name_eq, here, accessors]

theorem alike_shutAll (nodes : List Node) : Alike nodes (shutAll nodes) := by
  induction nodes using forest_induction with
  | nil =>
      rw [shutAll]
      exact .nil
  | cons kind scope location nested rest inside later =>
      rw [shutAll, shut]
      exact .cons rfl rfl rfl (fun other => by rwa [other]) later

theorem alike_underAll (front : List String) (nodes : List Node) :
    Alike nodes (underAll front nodes) := by
  induction nodes using forest_induction with
  | nil =>
      rw [underAll]
      exact .nil
  | cons kind scope location nested rest inside later =>
      rw [underAll, under]
      exact .cons rfl rfl rfl (fun _ => inside) later

end Alike

/-! ## Lines of a node -/

/-- The lines of its file that a node takes: all those of a skipped region, that of an include
directive, and those of the header of a declaration. -/
def ownLines : Node → List Nat
  | .mk kind _ location _ =>
    match kind with
    | .skip => linesBetween location.first.line location.last.line
    | .inclusion _ _ _ => [location.first.line]
    | .classDef _ _ braceLine => headerLines location (some braceLine)
    | .function _ _ _ braceLine | .property _ _ _ braceLine => headerLines location braceLine

variable {nodes : List Node} {node : Node}

theorem ownLines_subset_blockedLines (node : Node) : node.ownLines ⊆ node.blockedLines := by
  obtain ⟨kind, scope, location, nested⟩ := node
  cases kind with
  | skip | inclusion =>
      rw [ownLines, blockedLines]
      exact List.Subset.refl _
  | classDef | function | property =>
      rw [ownLines, blockedLines]
      exact List.subset_append_left _ _

theorem blockedLines_subset_all (member : node ∈ nodes) :
    node.blockedLines ⊆ blockedLinesAll nodes := by
  induction nodes with
  | nil => cases member
  | cons first rest ih =>
      rw [blockedLinesAll]
      rcases List.mem_cons.1 member with rfl | later
      · exact List.subset_append_left _ _
      · exact List.subset_append_of_subset_right _ (ih later)

/-- The lines of an accessor are blocked if no later one replaces it. -/
theorem blockedLines_subset_accessors {before after : List Node}
    (last : ∀ later ∈ after, (later.name? == some "get") ≠ (node.name? == some "get")) :
    node.blockedLines ⊆ blockedAccessorLines (before ++ node :: after) := by
  induction before with
  | nil =>
      rw [List.nil_append, blockedAccessorLines]
      dsimp only
      rw [if_neg (by simpa using last)]
      exact List.subset_append_left _ _
  | cons first before ih =>
      rw [List.cons_append, blockedAccessorLines]
      exact List.subset_append_of_subset_right _ ih

theorem StandsIn.blockedLines_subset {parent : Node} (stands : node.StandsIn parent)
    (other : parent.kind.isInclusion = false) (flat : parent.kind = .skip → parent.nested = []) :
    node.blockedLines ⊆ parent.blockedLines := by
  rcases stands with ⟨noProperty, member⟩ | counts
  · obtain ⟨kind, scope, location, nested⟩ := parent
    cases kind with
    | skip =>
        have empty : nested = [] := flat rfl
        subst empty
        cases member
    | inclusion => cases other
    | classDef | function =>
        rw [blockedLines]
        exact List.subset_append_of_subset_right _ (blockedLines_subset_all member)
    | property => cases noProperty
  · obtain ⟨property, before, after, split, last⟩ := exists_of_mem_accessors counts
    obtain ⟨kind, scope, location, nested⟩ := parent
    obtain rfl : nested = before ++ node :: after := split
    cases kind with
    | skip | inclusion | classDef | function => cases property
    | property =>
        rw [blockedLines]
        exact List.subset_append_of_subset_right _ (blockedLines_subset_accessors last)

/-- A node's lines are blocked in its file. -/
theorem Own.blockedLines_subset {source : Source} (keeps : ∀ node ∈ nodes, Keeps source.Holds node)
    (own : Own nodes node) : node.blockedLines ⊆ blockedLinesAll nodes := by
  induction own with
  | root member => exact blockedLines_subset_all member
  | inner outer other stands ih =>
      exact List.Subset.trans (stands.blockedLines_subset other (outer.keeps keeps).holds.flat) ih

end Node

/-! ## Files in class bodies -/

namespace Source

variable {source : Source} {pos limit : Nat} {segment : List Char} {turn : Turn}

theorem PropertyAt.isProperty (found : source.PropertyAt pos limit segment turn) :
    ∃ opener accessors next, turn = .found opener accessors next ∧ opener.kind.isProperty = true := by
  cases found <;> exact ⟨_, _, _, rfl, rfl⟩

/-- A turn in a class body that finds no property finds the same outside. -/
theorem turnAt?_outside (found : source.turnAt? pos limit true = some turn)
    (plain : ∀ opener accessors next, turn = .found opener accessors next →
      opener.kind.isProperty = false) : source.turnAt? pos limit false = some turn := by
  have declared {segment : List Char}
      (found : source.declarationTurn? pos limit true segment = some turn) :
      source.declarationTurn? pos limit false segment = some turn := by
    simp only [declarationTurn?, Option.pure_def, Option.bind_eq_bind,
      Option.bind_eq_some_iff] at found ⊢
    obtain ⟨classTurn, inClassTurn, found⟩ := found
    refine ⟨classTurn, inClassTurn, ?_⟩
    cases classTurn with
    | some other => exact found
    | none =>
        simp only [Option.bind_eq_some_iff] at found ⊢
        obtain ⟨functionTurn, inFunctionTurn, found⟩ := found
        refine ⟨functionTurn, inFunctionTurn, ?_⟩
        cases functionTurn with
        | some other => exact found
        | none =>
            simp only [if_true, Option.bind_eq_some_iff] at found
            obtain ⟨propertyTurn, inPropertyTurn, found⟩ := found
            cases propertyTurn with
            | some other =>
                cases found
                obtain ⟨opener, accessors, next, same, property⟩ :=
                  (propertyAt_of_propertyTurn? inPropertyTurn).isProperty
                rw [plain opener accessors next same] at property
                cases property
            | none => exact found
  simp only [turnAt?, Option.pure_def, Option.bind_eq_bind, Option.bind_eq_some_iff] at found ⊢
  obtain ⟨segment, looked, found⟩ := found
  refine ⟨segment, looked, ?_⟩
  split at found
  · next comment => rwa [if_pos comment]
  · next noComment =>
    rw [if_neg noComment]
    split at found
    · next blank => rwa [if_pos blank]
    · next code =>
      rw [if_neg code]
      split at found
      · next begins =>
        rw [if_pos begins]
        split at found
        · exact found
        · split at found
          · next directive => rwa [if_pos directive]
          · next other =>
            rw [if_neg other]
            exact declared found
      · next inside =>
        rw [if_neg inside]
        exact declared found

/-- A scan in a class body that finds no property finds the same outside. -/
theorem scan?_outside_class {scope : List String} {nodes : List Node}
    (found : source.scan? pos limit scope true = some nodes)
    (plain : ∀ node ∈ nodes, node.kind.isProperty = false) :
    source.scan? pos limit scope false = some nodes := by
  refine scan?_induction (P := fun pos limit scope inClass nodes => inClass = true →
    (∀ node ∈ nodes, node.kind.isProperty = false) → source.scan? pos limit scope false = some nodes)
    ?outside ?pass ?found found rfl plain
  case outside =>
    intro pos limit scope inClass outside _ _
    exact scan?_outside outside
  case pass =>
    rintro pos limit next scope _ nodes inFile turn - - rest rfl plain
    rw [scan?_pass inFile (turnAt?_outside turn (by rintro _ _ _ ⟨⟩))]
    exact rest rfl plain
  case found =>
    rintro pos limit next scope _ opener accessors inside nested others inFile turn entered accessed - -
      - rest rfl plain
    rw [List.forall_mem_cons] at plain
    have outside := turnAt?_outside turn (by
      rintro _ _ _ ⟨⟩
      exact plain.1)
    rw [scan?_found inFile outside entered accessed, rest rfl plain.2]
    rfl

end Source

theorem Follower.isProperty_of_linkAll {follower : Follower} {inClass : Bool} {walk last : Walk}
    {nodes linked : List Node}
    (found : Node.linkAll follower inClass walk nodes = some (linked, last)) :
    linked.map (fun node => node.kind.isProperty) = nodes.map fun node => node.kind.isProperty := by
  induction nodes generalizing walk last linked with
  | nil =>
      obtain ⟨rfl, -⟩ := linkAll_nil.1 found
      rfl
  | cons node rest ih =>
      obtain ⟨first, between, others, links, tail, rfl⟩ := linkAll_cons.1 found
      have same : first.kind.isProperty = node.kind.isProperty := by
        cases links <;> rfl
      rw [List.map_cons, List.map_cons, same, ih tail]

/-! ## Breakpoints -/

namespace ScannedFile

variable {file : ScannedFile} {requested line : Nat}

/-- Whether the engine can stop on a line: it has code, and no node takes it. -/
structure Executable (file : ScannedFile) (line : Nat) : Prop where
  free : line ∉ file.blockedLines
  code : file.hasCode line = true

theorem Executable.range (executable : file.Executable line) : 1 ≤ line ∧ line ≤ file.lineCount := by
  have code := executable.code
  rw [hasCode] at code
  split at code
  · cases code
  · next text found =>
    rw [Source.lineText?] at found
    split at found
    · cases found
    · next positive =>
      obtain ⟨start, begins, -⟩ := Option.map_eq_some_iff.1 found
      have inTable : line - 1 < file.source.lineStarts.size :=
        (Array.getElem?_eq_some_iff.1 begins).1
      rw [beq_iff_eq] at positive
      exact ⟨Nat.one_le_iff_ne_zero.2 positive, by rw [lineCount, Source.lineCount]; omega⟩

/-- Where a line breakpoint goes: to the first line from the requested one on where the engine can
stop, or nowhere if there is none. -/
theorem resolveLine_cases (file : ScannedFile) (requested : Nat) :
    (∃ line, file.resolveLine requested = ⟨line, true⟩ ∧ requested ≤ line ∧ file.Executable line ∧
      ∀ earlier, requested ≤ earlier → earlier < line → ¬ file.Executable earlier) ∨
    file.resolveLine requested = ⟨requested, false⟩ ∧
      ∀ line, requested ≤ line → ¬ file.Executable line := by
  have holds_iff (line : Nat) :
      (!file.blockedLines.contains line && file.hasCode line) = true ↔ file.Executable line := by
    rw [Bool.and_eq_true, Bool.not_eq_true', List.contains_eq_mem, decide_eq_false_iff_not]
    exact ⟨fun holds => ⟨holds.1, holds.2⟩, fun holds => ⟨holds.free, holds.code⟩⟩
  unfold resolveLine linesBetween
  dsimp only
  split
  · next line found =>
    rw [List.find?_range'_eq_some, holds_iff, List.mem_range'_1] at found
    obtain ⟨executable, inside, none⟩ := found
    refine .inl ⟨line, rfl, by omega, executable, fun earlier after before stops => ?_⟩
    have other := none earlier (by have := stops.range; omega) before
    rw [Bool.not_eq_true', ← Bool.not_eq_true, holds_iff] at other
    exact other stops
  · next found =>
    rw [List.find?_range'_eq_none] at found
    refine .inr ⟨rfl, fun line after stops => ?_⟩
    have inside := stops.range
    have other := found line (by omega) (by omega)
    rw [Bool.not_eq_true', ← Bool.not_eq_true, holds_iff] at other
    exact other stops

end ScannedFile

namespace IncludeContext

open Node Source

variable {context : IncludeContext} {host : Host} {path : String} {scope : List String}
  {inClass : Bool} {nodes : List Node}

/-- A script whose nodes were found in a program can be scanned on its own, with the same nodes: a
class body may include it if it has no properties outside of its own classes. -/
theorem Entered.exists_scanFile (entered : context.Entered host path scope inClass nodes)
    (plain : inClass = true → ∀ node ∈ nodes, node.kind.isProperty = false) :
    ∃ file, context.scanFile host path = .ok file ∧ shutAll nodes = underAll scope file.nodes := by
  obtain ⟨text, enter, visited, source, after, read, found⟩ := entered
  obtain ⟨rfl, outline, base, scanned, linked⟩ := scanText_eq_some_iff.1 found
  have outside : (Source.ofText context.version path text).scan? 0
      (Source.ofText context.version path text).size scope false = some outline := by
    cases inClass with
    | false => exact scanned
    | true =>
        refine scan?_outside_class scanned fun node member => ?_
        have same := Follower.isProperty_of_linkAll linked
        have value := List.mem_map_of_mem (f := fun node : Node => node.kind.isProperty) member
        rw [← same, List.mem_map] at value
        obtain ⟨other, place, same⟩ := value
        rw [← same, plain rfl other place]
  obtain ⟨file, alone, same⟩ := exists_scanSource outside linked
  refine ⟨file, ?_, same⟩
  rw [scanFile, read]
  exact alone

/-- A line breakpoint never goes to a line that a node takes.  A file in which the search of a program
has located a node can be scanned on its own; and the line to which this scan takes a breakpoint is
none of those of the node, unless a class body includes the file and the file has properties outside
of its own classes. -/
theorem notMem_ownLines_of_verified {node : Node} (found : context.findProgram host path = .ok nodes)
    (located : Located nodes node)
    (plain : ∀ inclusion, (true, inclusion) ∈ inclusionsAll false nodes →
      host.included? inclusion = some node.location.file →
        ∀ child ∈ inclusion.nested, child.kind.isProperty = false) :
    ∃ file, context.scanFile host node.location.file = .ok file ∧
      ∀ requested, (file.resolveLine requested).verified = true →
        (file.resolveLine requested).line ∉ node.ownLines := by
  obtain ⟨part, scope, inClass, entered, own, origin⟩ := exists_script found located
  have outside : inClass = true → ∀ node ∈ part, node.kind.isProperty = false := by
    rintro rfl
    rcases origin with ⟨-, inMain⟩ | ⟨inclusion, member, rfl, included⟩
    · cases inMain
    · exact plain inclusion member included
  obtain ⟨file, scanned, same⟩ := entered.exists_scanFile outside
  obtain ⟨source, -, keeps⟩ := entered.keeps
  -- The file on its own blocks the same lines as its nodes in the program do.
  have blocked : file.blockedLines = blockedLinesAll part := by
    rw [ScannedFile.blockedLines, ← (alike_underAll scope file.nodes).blocked.1, ← same,
      (alike_shutAll part).blocked.1]
  refine ⟨file, scanned, fun requested verified taken => ?_⟩
  rcases file.resolveLine_cases requested with ⟨line, goes, -, stops, -⟩ | ⟨goes, -⟩
  · rw [goes] at taken
    refine stops.free ?_
    rw [blocked]
    exact own.blockedLines_subset keeps (ownLines_subset_blockedLines node taken)
  · rw [goes] at verified
    cases verified

/-- A program whose class body includes a file. -/
def includingInClass : String := "class A \x7b\n#Include lib.ahk\n\x7d\n"

/-- A breakpoint on the header of a method in the included file goes to its body. -/
theorem notMem_ownLines_of_verified_method :
    ∃ nodes node file,
      inMain.findProgram (Host.ofScripts [("main.ahk", includingInClass),
        ("lib.ahk", "F() \x7b\nreturn 1\n\x7d\n")]) "main.ahk" = .ok nodes ∧
      Located nodes node ∧ node.location.file = "lib.ahk" ∧ 1 ∈ node.ownLines ∧
      inMain.scanFile (Host.ofScripts [("main.ahk", includingInClass),
        ("lib.ahk", "F() \x7b\nreturn 1\n\x7d\n")]) "lib.ahk" = .ok file ∧
      file.resolveLine 1 = ⟨2, true⟩ ∧ 2 ∉ node.ownLines := by
  generalize host_eq : Host.ofScripts [("main.ahk", includingInClass),
    ("lib.ahk", "F() \x7b\nreturn 1\n\x7d\n")] = host
  have looks : (inMain.findProgram host "main.ahk").toOption.any fun nodes =>
      ((findFunction? nodes "F").any fun node =>
        node.location.file == "lib.ahk" && node.ownLines.contains 1) &&
      (inclusionsAll false nodes).all fun entry =>
        entry.2.nested.all fun child => !child.kind.isProperty := by
    subst host_eq
    decide +kernel
  have goes : (inMain.scanFile host "lib.ahk").toOption.any fun file =>
      file.resolveLine 1 == ⟨2, true⟩ := by
    subst host_eq
    decide +kernel
  obtain ⟨nodes, found, looks⟩ := exists_ok_of_any looks
  obtain ⟨file, scanned, goes⟩ := exists_ok_of_any goes
  simp only [Bool.and_eq_true, Option.any_eq_true, List.all_eq_true, Bool.not_eq_true', beq_iff_eq,
    List.contains_iff_mem] at looks goes
  obtain ⟨⟨node, first, inLibrary, header⟩, plain⟩ := looks
  have located : Located nodes node :=
    located_of_mem_flattenAll (fun _ => .root) (List.mem_of_find?_eq_some first)
  obtain ⟨alone, same, apart⟩ := notMem_ownLines_of_verified found located
    fun inclusion member _ child inside => plain (true, inclusion) member child inside
  rw [inLibrary, scanned] at same
  cases same
  have apart := apart 1 (by rw [goes])
  rw [goes] at apart
  exact ⟨nodes, node, file, found, located, inLibrary, header, scanned, goes, apart⟩

/-- Where the included file has a property, a breakpoint goes to its header. -/
theorem mem_ownLines_of_property :
    ∃ nodes node file,
      inMain.findProgram (Host.ofScripts [("main.ahk", includingInClass),
        ("lib.ahk", "Value \x7b\nget \x7b\nreturn 1\n\x7d\n\x7d\n")]) "main.ahk" = .ok nodes ∧
      Located nodes node ∧ node.location.file = "lib.ahk" ∧
      inMain.scanFile (Host.ofScripts [("main.ahk", includingInClass),
        ("lib.ahk", "Value \x7b\nget \x7b\nreturn 1\n\x7d\n\x7d\n")]) "lib.ahk" = .ok file ∧
      (file.resolveLine 1).verified = true ∧ (file.resolveLine 1).line ∈ node.ownLines := by
  generalize host_eq : Host.ofScripts [("main.ahk", includingInClass),
    ("lib.ahk", "Value \x7b\nget \x7b\nreturn 1\n\x7d\n\x7d\n")] = host
  have looks : (inMain.findProgram host "main.ahk").toOption.any fun nodes =>
      (flattenAll nodes).any fun node =>
        node.location.file == "lib.ahk" && node.ownLines.contains 1 := by
    subst host_eq
    decide +kernel
  have goes : (inMain.scanFile host "lib.ahk").toOption.any fun file =>
      file.resolveLine 1 == ⟨1, true⟩ := by
    subst host_eq
    decide +kernel
  obtain ⟨nodes, found, looks⟩ := exists_ok_of_any looks
  obtain ⟨file, scanned, goes⟩ := exists_ok_of_any goes
  simp only [Bool.and_eq_true, List.any_eq_true, beq_iff_eq, List.contains_iff_mem] at looks goes
  obtain ⟨node, member, inLibrary, header⟩ := looks
  refine ⟨nodes, node, file, found, located_of_mem_flattenAll (fun _ => .root) member, inLibrary,
    scanned, ?_⟩
  rw [goes]
  exact ⟨rfl, header⟩

end IncludeContext
end DebugBridge
