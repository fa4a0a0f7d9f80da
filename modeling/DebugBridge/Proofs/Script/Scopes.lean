import DebugBridge.Proofs.Script.Following
import DebugBridge.Proofs.Script.Placement

/-!
# Scopes and headers

A scan hands the names around a place down to what it finds there: what is nested in a declaration is
found under the declaration's own name, the inside of an accessor also under the accessor's, and what
an include shows under the names around the include.  A tree in which this holds everywhere, and whose
nodes lie where their locations say, is coherent; scanning makes coherent trees, and resolving includes
puts coherent trees into coherent trees.
-/

namespace DebugBridge

open Text

namespace Node

/-! ## Coherent trees -/

/-- Whether a node is an accessor: a function that is named after the keyword of its header.  Of the
keyword only ASCII letters are put in lower case, so `set` keeps a long s. -/
def IsAccessor (node : Node) : Prop :=
  ∃ name braceLine, node.kind = .function name false "" braceLine ∧
    (name = "get" ∨ name = "set" ∨
      name = "\u017Fet" ∧ node.location.text.toList.head? = some '\u017F')

/-- Trees of a script that was scanned under a scope: every node has the scope that the nodes around it
make, and lies in the text of the script that it was found in. -/
inductive Coherent (host : Host) : String → List Char → List String → Node → Prop
  /-- A node that is no include, with what is nested in it. -/
  | declared {path : String} {text : List Char} {kind : Kind} {scope : List String}
      {location : Location} {nested : List Node} (other : kind.isInclusion = false)
      (lies : location.LiesIn path text kind)
      (accessors : kind.isProperty = true → ∀ child ∈ nested, child.IsAccessor)
      (below : ∀ child ∈ nested, Coherent host path text (scope ++ kind.name?.toList) child) :
      Coherent host path text scope (.mk kind scope location nested)
  /-- An include that shows nothing. -/
  | closed {path : String} {text : List Char} {kind : Kind} {scope : List String}
      {location : Location} (inclusion : kind.isInclusion = true)
      (lies : location.LiesIn path text kind) :
      Coherent host path text scope (.mk kind scope location [])
  /-- An include with the nodes of the script that it names. -/
  | entered {path script : String} {text inner : List Char} {kind : Kind} {scope : List String}
      {location : Location} {nested : List Node} (inclusion : kind.isInclusion = true)
      (lies : location.LiesIn path text kind)
      (names : host.included? (.mk kind scope location nested) = some script)
      (read : IncludeContext.readScript host script = .ok inner)
      (below : ∀ child ∈ nested, Coherent host script inner scope child) :
      Coherent host path text scope (.mk kind scope location nested)

section Coherence

variable {host : Host} {path : String} {text : List Char} {scope : List String} {node : Node}

theorem Coherent.scope_eq (coherent : Coherent host path text scope node) : node.scope = scope := by
  cases coherent with
  | declared | closed | entered => rfl

theorem Coherent.lies (coherent : Coherent host path text scope node) :
    node.location.LiesIn path text node.kind := by
  cases coherent with
  | declared _ lies | closed _ lies | entered _ lies => exact lies

theorem Coherent.accessors (coherent : Coherent host path text scope node)
    (property : node.kind.isProperty = true) : ∀ child ∈ node.nested, child.IsAccessor := by
  cases coherent with
  | declared _ _ accessors => exact accessors property
  | closed inclusion | entered inclusion =>
      obtain ⟨_, _, _, rfl⟩ := Kind.isInclusion_iff.1 inclusion
      cases property

end Coherence

end Node

namespace Header

/-! ## Names of accessors -/

theorem sameLetter_cases {letter c : Char} (same : sameLetter letter c = true) :
    c.toLower = letter ∨ letter = 's' ∧ c = '\u017F' ∨ letter = 'k' ∧ c = '\u212A' := by
  simpa [sameLetter, or_assoc] using same

/-- A keyword of three letters without a `k` is read from three characters that differ from it at most
by their case, or by a long s. -/
theorem exists_of_afterKeyword? {first second third : Char} {text rest : List Char}
    (found : afterKeyword? [first, second, third] text = some rest) :
    ∃ a b c, text = a :: b :: c :: rest ∧ sameLetter first a = true ∧ sameLetter second b = true ∧
      sameLetter third c = true := by
  match text with
  | [] | [_] | [_, _] => simp [afterKeyword?] at found
  | a :: b :: c :: text =>
      simp only [afterKeyword?, Option.ite_none_right_eq_some, Option.some.injEq] at found
      obtain ⟨one, two, three, rfl⟩ := found
      exact ⟨a, b, c, rfl, one, two, three⟩

/-- The name in the header of an accessor. -/
theorem accessorHeader?_name {line name : List Char} {ending : Ending}
    (found : accessorHeader? line = some (name, ending)) :
    name = "get".toList ∨ name = "set".toList ∨
      name = "\u017Fet".toList ∧ (skipIndent line).head? = some '\u017F' := by
  have plain {letter c : Char} (same : sameLetter letter c = true) (s : letter ≠ 's')
      (k : letter ≠ 'k') : c.toLower = letter := by
    rcases sameLetter_cases same with lower | ⟨rfl, -⟩ | ⟨rfl, -⟩
    · exact lower
    · exact absurd rfl s
    · exact absurd rfl k
  simp only [accessorHeader?, Option.pure_def, Option.bind_eq_bind, Option.bind_eq_some_iff,
    Option.orElse_eq_orElse, Option.orElse_eq_or, Option.some.injEq, Prod.mk.injEq] at found
  obtain ⟨rest, keyword, ending, -, rfl, -⟩ := found
  rcases Option.or_eq_some_iff.1 keyword with get | ⟨-, set⟩
  · obtain ⟨a, b, c, text, one, two, three⟩ := exists_of_afterKeyword?
      (show afterKeyword? ['g', 'e', 't'] (skipIndent line) = some rest from get)
    left
    rw [text, List.take_succ_cons, List.take_succ_cons, List.take_succ_cons, List.take_zero]
    simp [asciiLower, plain one (by decide) (by decide), plain two (by decide) (by decide),
      plain three (by decide) (by decide)]
  · obtain ⟨a, b, c, text, one, two, three⟩ := exists_of_afterKeyword?
      (show afterKeyword? ['s', 'e', 't'] (skipIndent line) = some rest from set)
    right
    rw [text, List.take_succ_cons, List.take_succ_cons, List.take_succ_cons, List.take_zero]
    rcases sameLetter_cases one with lower | ⟨-, rfl⟩ | ⟨impossible, -⟩
    · left
      simp [asciiLower, lower, plain two (by decide) (by decide), plain three (by decide) (by decide)]
    · right
      have long : ('\u017F').toLower = '\u017F' := by decide
      simp [asciiLower, long, plain two (by decide) (by decide), plain three (by decide) (by decide)]
    · exact absurd impossible (by decide)

end Header

namespace Source

open Header

section Accessors

variable {source : Source} {text masked : List Char} (reads : source.Reads text masked)

/-- An accessor is a function whose name stands in its header. -/
theorem exists_header_of_accessor? {start resume : Nat} {accessor : Opener}
    (found : source.accessor? start = some (some (accessor, resume))) :
    ∃ name ending braceLine, accessorHeader? (source.maskedLine start) = some (name, ending) ∧
      accessor.kind = .function (String.ofList name) false "" braceLine := by
  unfold accessor? at found
  split at found
  · cases found
  next name ending read =>
    dsimp only at found
    split at found
    · simp only [Option.pure_def, Option.bind_eq_bind, Option.bind_eq_some_iff, Option.some.injEq,
        Prod.mk.injEq] at found
      obtain ⟨location, -, rfl, -⟩ := found
      exact ⟨name, _, none, read, rfl⟩
    · split at found
      · cases found
      next brace opening =>
        simp only [Option.pure_def, Option.bind_eq_bind, Option.bind_eq_some_iff,
          Option.some.injEq, Prod.mk.injEq] at found
        obtain ⟨location, -, rfl, -⟩ := found
        exact ⟨name, ending, some (source.lineOf brace + 1), read, rfl⟩

include reads

/-- An accessor starts with the code of its line, and is not empty if the line is not. -/
theorem AccessorAt.start_eq {start resume : Nat} {accessor : Opener}
    (found : source.AccessorAt start accessor resume) :
    accessor.location.start = start + source.indent start ∧
      (start + source.indent start < source.lineEnd start →
        accessor.location.start < accessor.location.stop) := by
  cases found with
  | @arrow kind location flat located =>
      obtain ⟨start_eq, stop_eq, -⟩ := location?_spec located
      have inside := reads.lineEnd_le_size start
      exact ⟨start_eq, fun code => show location.start < location.stop by omega⟩
  | block lined byte first reached located =>
      have nonempty := ((liesIn_of_block reads lined byte first located).lines lined).1
      exact ⟨(location_of_block byte first located).1, fun _ => nonempty⟩

/-- What stands first in the code of a line, if it is no space, stands first in what starts there. -/
theorem head?_of_skipIndent {start : Nat} {location : Location} {kind : Kind} {c : Char}
    (begins : start ∈ source.lineStarts) (lies : location.LiesIn source.path text kind)
    (place : location.start = start + source.indent start)
    (nonempty : start + source.indent start < source.lineEnd start →
      location.start < location.stop)
    (first : (skipIndent (source.maskedLine start)).head? = some c) (visible : c ≠ ' ') :
    location.text.toList.head? = some c := by
  obtain ⟨front, back, hidden, front_eq, line_eq⟩ := reads.exists_maskedLine start
  rw [reads.lineStart_of_mem begins] at front_eq
  obtain ⟨rest, code⟩ := List.head?_eq_some_iff.1 first
  have line : source.maskedLine start =
      (source.maskedLine start).takeWhile isIndent ++ c :: rest := by
    rw [← code, skipIndent, List.takeWhile_append_dropWhile]
  have indent : byteLength ((source.maskedLine start).takeWhile isIndent) = source.indent start := by
    rw [indent, byteLength_of_le]
    intro blank member
    have isBlank := List.mem_takeWhile_imp member
    simp only [isIndent, Bool.or_eq_true, beq_iff_eq] at isBlank
    rcases isBlank with rfl | rfl <;> decide
  -- The character and what stands before it, once in the masked text and once in the text.
  have hidden' : masked = front ++ (source.maskedLine start).takeWhile isIndent ++
      c :: (rest ++ back) := by
    rw [hidden]
    conv_lhs => rw [line]
    simp
  obtain ⟨before, after, plain, before_eq⟩ := exists_visible reads hidden' visible
  obtain ⟨before', after', slice, before'_eq, stop_eq⟩ := lies.slice
  rw [byteLength_append, front_eq, indent, ← place, ← before'_eq] at before_eq
  have long : start + source.indent start < source.lineEnd start := by
    rw [line, byteLength_append, byteLength_cons, indent] at line_eq
    have := c.utf8Size_pos
    omega
  rw [byteLength_append, before'_eq] at stop_eq
  have same : before ++ c :: after = before' ++ (location.text.toList ++ after') := by
    rw [← plain, slice, List.append_assoc]
  rw [append_inj_of_byteLength same before_eq, List.append_cancel_left_eq] at same
  cases slice_eq : location.text.toList with
  | nil =>
      rw [slice_eq, byteLength_nil] at stop_eq
      have := nonempty long
      omega
  | cons d tail =>
      rw [slice_eq, List.cons_append] at same
      rw [List.head?_cons, (List.cons.inj same).1]

/-- What becomes of an accessor is one. -/
theorem isAccessor_of_accessor? {start resume : Nat} {accessor : Opener} {node : Node}
    (begins : start ∈ source.lineStarts)
    (found : source.accessor? start = some (some (accessor, resume)))
    (kind_eq : node.kind = accessor.kind) (location_eq : node.location = accessor.location) :
    node.IsAccessor := by
  obtain ⟨name, ending, braceLine, header, made⟩ := exists_header_of_accessor? found
  have shape := accessorAt_of_accessor? reads begins found
  refine ⟨_, braceLine, kind_eq.trans made, ?_⟩
  rcases accessorHeader?_name header with rfl | rfl | ⟨rfl, first⟩
  · exact .inl rfl
  · exact .inr (.inl rfl)
  · obtain ⟨place, nonempty⟩ := AccessorAt.start_eq reads shape
    rw [location_eq]
    exact .inr (.inr ⟨rfl, head?_of_skipIndent reads begins (AccessorAt.liesIn reads shape) place
      nonempty first (by decide)⟩)

omit reads in
theorem exists_of_mem_accessorsFrom {starts : List Nat} {resume : Nat} {accessors : List Opener}
    (found : source.accessorsFrom resume starts = some accessors) {accessor : Opener}
    (member : accessor ∈ accessors) : ∃ start ∈ starts, ∃ resume,
      source.accessor? start = some (some (accessor, resume)) := by
  induction starts generalizing resume accessors with
  | nil =>
      cases found
      cases member
  | cons start rest ih =>
      have later {resume : Nat} {accessors : List Opener}
          (found : source.accessorsFrom resume rest = some accessors)
          (member : accessor ∈ accessors) : ∃ start' ∈ start :: rest, ∃ resume,
            source.accessor? start' = some (some (accessor, resume)) := by
        obtain ⟨start', place, found⟩ := ih found member
        exact ⟨start', List.mem_cons_of_mem _ place, found⟩
      rw [accessorsFrom] at found
      split at found
      · exact later found member
      · simp only [Option.pure_def, Option.bind_eq_bind, Option.bind_eq_some_iff] at found
        obtain ⟨step, head, found⟩ := found
        split at found
        · exact later found member
        next first further =>
          simp only [Option.bind_eq_some_iff, Option.some.injEq] at found
          obtain ⟨others, tail, rfl⟩ := found
          rcases List.mem_cons.1 member with rfl | member
          · exact ⟨start, List.mem_cons_self, further, head⟩
          · exact later tail member

omit reads in
/-- The accessors of a property are found where lines start. -/
theorem exists_of_mem_accessors? {brace stop : Nat} {accessors : List Opener}
    (found : source.accessors? brace stop = some accessors) {accessor : Opener}
    (member : accessor ∈ accessors) : ∃ start ∈ source.lineStarts, ∃ resume,
      source.accessor? start = some (some (accessor, resume)) := by
  obtain ⟨start, place, found⟩ := exists_of_mem_accessorsFrom found member
  exact ⟨start, Array.mem_toList_iff.1 (List.mem_filter.1 place).1, found⟩

end Accessors

/-! ## Insides of properties -/

section Insides

variable {source : Source} {pos limit : Nat} {turn : Turn}

/-- Whether a turn leaves the inside of a property to its accessors, and finds accessors only in the
block of one. -/
def LeavesInside (source : Source) : Turn → Prop
  | .pass _ => True
  | .found opener accessors _ =>
    (opener.kind.isProperty = true → opener.inside = none) ∧
      (accessors = [] ∨ ∃ brace stop, source.accessors? brace stop = some accessors)

/-- The inside of a property is left to its accessors. -/
theorem leavesInside_of_turnAt? {inClass : Bool}
    (found : source.turnAt? pos limit inClass = some turn) : source.LeavesInside turn := by
  obtain ⟨segment, -, turns⟩ := exists_turnsTo found
  cases turns with
  | comment | inclusion | directive => exact ⟨fun _ => rfl, .inl rfl⟩
  | classDef found =>
      cases found
      exact ⟨(absurd · Bool.false_ne_true), .inl rfl⟩
  | function found =>
      cases found with
      | arrow => exact ⟨fun _ => rfl, .inl rfl⟩
      | block => exact ⟨(absurd · Bool.false_ne_true), .inl rfl⟩
  | property _ found =>
      cases found with
      | arrow => exact ⟨fun _ => rfl, .inl rfl⟩
      | block _ _ _ _ _ accessed => exact ⟨fun _ => rfl, .inr ⟨_, _, accessed⟩⟩
  | pass => trivial

end Insides

/-! ## Scans -/

section Scans

variable {source : Source} {text masked : List Char} (reads : source.Reads text masked)
  {host : Host}

include reads

/-- What is found of an accessor is coherent if what is found inside of it is. -/
theorem coherent_of_accessor? {scope : List String} {start resume : Nat} {accessor : Opener}
    {node : Node} (begins : start ∈ source.lineStarts)
    (found : source.accessor? start = some (some (accessor, resume)))
    (enter : ∀ range ∈ accessor.inside, ∀ scope nodes,
      source.scan? range.1 range.2 scope false = some nodes →
        ∀ node ∈ nodes, Node.Coherent host source.path text scope node)
    (entered : source.accessorNode? scope accessor = some node) :
    Node.Coherent host source.path text scope node ∧ node.IsAccessor := by
  simp only [accessorNode?, Option.pure_def, Option.bind_eq_bind, Option.bind_eq_some_iff,
    Option.some.injEq] at entered
  obtain ⟨inside, within, rfl⟩ := entered
  obtain ⟨name, ending, braceLine, -, made⟩ := exists_header_of_accessor? found
  have lies := AccessorAt.liesIn reads (accessorAt_of_accessor? reads begins found)
  refine ⟨.declared (by rw [made]; rfl) lies (by rw [made]; rintro ⟨⟩) ?_,
    isAccessor_of_accessor? reads begins found rfl rfl⟩
  cases range : accessor.inside with
  | none =>
      rw [range] at within
      cases within
      simp
  | some range' =>
      rw [range] at within
      exact enter range' range _ _ within

omit reads in
/-- An include has neither an inside nor accessors. -/
theorem Opens.flat {pos limit next : Nat} {segment : List Char} {opener : Opener}
    {accessors : List Opener} (opens : source.Opens pos limit segment opener accessors next)
    (inclusion : opener.kind.isInclusion = true) : opener.inside = none ∧ accessors = [] := by
  cases opens with
  | comment | line | arrow => exact ⟨rfl, rfl⟩
  | block lined | property lined =>
      obtain ⟨_, _, _, rfl⟩ := Kind.isInclusion_iff.1 inclusion
      cases lined

/-- What is found of a construct is coherent if what is found inside of it is. -/
theorem coherent_of_opens {pos limit next : Nat} {segment : List Char} {opener : Opener}
    {accessors : List Opener} {scope : List String} {inside nested : List Node}
    (opens : source.Opens pos limit segment opener accessors next)
    (leaves : source.LeavesInside (.found opener accessors next))
    (enter : ∀ range ∈ (Turn.found opener accessors next).insides, ∀ scope inClass nodes,
      source.scan? range.1 range.2 scope inClass = some nodes →
        ∀ node ∈ nodes, Node.Coherent host source.path text scope node)
    (entered : source.within? opener.inside (scope ++ opener.kind.name?.toList)
      opener.kind.isClass = some inside)
    (accessed : accessors.mapM (source.accessorNode? (scope ++ opener.kind.name?.toList)) =
      some nested) :
    Node.Coherent host source.path text scope
      (.mk opener.kind scope opener.location (inside ++ nested)) := by
  have lies := opens.liesIn reads
  obtain ⟨empty, found⟩ := leaves
  cases inclusion : opener.kind.isInclusion with
  | true =>
      obtain ⟨none, rfl⟩ := opens.flat inclusion
      rw [none] at entered
      cases entered
      cases accessed
      exact .closed inclusion lies
  | false =>
      have inner : ∀ node ∈ inside, Node.Coherent host source.path text
          (scope ++ opener.kind.name?.toList) node := by
        cases range : opener.inside with
        | none =>
            rw [range] at entered
            cases entered
            simp
        | some range' =>
            rw [range] at entered
            exact enter range' (by simp [Turn.insides, range]) _ _ _ entered
      have accessor : ∀ node ∈ nested, Node.Coherent host source.path text
          (scope ++ opener.kind.name?.toList) node ∧ node.IsAccessor := by
        intro node member
        obtain ⟨accessor, place, made⟩ := (nodes_of_mapM accessed).2 node member
        rcases found with rfl | ⟨brace, stop, found⟩
        · cases place
        obtain ⟨start, begins, resume, found⟩ := exists_of_mem_accessors? found place
        refine coherent_of_accessor? reads begins found (fun range member scope nodes => ?_) made
        refine enter range ?_ scope false nodes
        simp only [Turn.insides, List.mem_append, List.mem_filterMap]
        exact .inr ⟨accessor, place, member⟩
      refine .declared inclusion lies (fun property => ?_) ?_
      · rw [empty property] at entered
        cases entered
        exact fun node member => (accessor node member).2
      · intro node member
        rcases List.mem_append.1 member with member | member
        · exact inner node member
        · exact (accessor node member).1

/-- What a scan finds is coherent. -/
theorem coherent_of_scan? {pos limit : Nat} {scope : List String} {inClass : Bool}
    {nodes : List Node} (found : source.scan? pos limit scope inClass = some nodes) :
    ∀ node ∈ nodes, Node.Coherent host source.path text scope node := by
  refine scan?_induction
    (P := fun _ _ scope _ nodes => ∀ node ∈ nodes, Node.Coherent host source.path text scope node)
    (fun _ => List.forall_mem_nil _) (fun _ _ _ _ rest => rest) ?_ found
  intro pos limit next scope inClass opener accessors inside nested others inFile turn entered accessed
    enter _ _ rest
  obtain ⟨segment, -, opens⟩ := opens_of_found reads inFile.1 turn
  obtain ⟨-, deeper⟩ := turnAt?_advances inFile.2 turn
  exact List.forall_mem_cons.2 ⟨coherent_of_opens reads opens (leavesInside_of_turnAt? turn)
    (fun range member scope inClass nodes => enter range scope inClass nodes (deeper range member))
    entered accessed, rest⟩

end Scans

end Source

namespace IncludeContext

open Node Source

variable {context : IncludeContext} {host : Host} {path : String} {text : List Char}
  {enter : List String → String → List String → Bool → Option (List Node × List String)}
  {visited after : List String} {scope : List String} {inClass : Bool} {nodes : List Node}

/-! ## Resolved includes -/

/-- An include lies where it does whatever it resolves to. -/
theorem liesIn_inclusion {directive : Directive} {again : Bool} {resolved : Option String}
    {location : Location} (lies : location.LiesIn path text (.inclusion directive again resolved))
    (other : Option String) : location.LiesIn path text (.inclusion directive again other) :=
  ⟨lies.file, lies.slice, lies.first, lies.last, lies.brace⟩

/-- Whether what comes of entering a file is nothing, or coherent with the text of the file. -/
def EntersCoherent (host : Host)
    (enter : List String → String → List String → Bool → Option (List Node × List String)) : Prop :=
  ∀ visited path scope inClass nodes after, enter visited path scope inClass = some (nodes, after) →
    nodes = [] ∨ ∃ text, readScript host path = .ok text ∧
      ∀ node ∈ nodes, Coherent host path text scope node

/-- Coherent trees stay so when the includes in them are resolved, and accessors stay accessors. -/
theorem coherent_linkAll (enters : EntersCoherent host enter) {file : String} {walk last : Walk}
    {outline : List Node} (coherent : ∀ node ∈ outline, Coherent host path text scope node)
    (found : Node.linkAll (context.follower host file enter) inClass walk outline =
      some (nodes, last)) :
    (∀ node ∈ nodes, Coherent host path text scope node) ∧
      ((∀ node ∈ outline, node.IsAccessor) → ∀ node ∈ nodes, node.IsAccessor) := by
  induction outline using Node.forest_induction generalizing scope inClass walk last nodes with
  | nil =>
      obtain ⟨rfl, -⟩ := Follower.linkAll_nil.1 found
      simp
  | cons kind scope' location nested rest inside later =>
      obtain ⟨first, between, others, links, tail, rfl⟩ := Follower.linkAll_cons.1 found
      rw [List.forall_mem_cons] at coherent
      obtain ⟨whole, accessors⟩ := later coherent.2 tail
      obtain rfl := coherent.1.scope_eq
      have lies := coherent.1.lies
      have head : Coherent host path text scope' first ∧
          (IsAccessor (.mk kind scope' location nested) → first.IsAccessor) := by
        cases links with
        | unresolved fails =>
            exact ⟨.closed rfl (liesIn_inclusion lies none), by rintro ⟨_, _, ⟨⟩, -⟩⟩
        | directory names directory =>
            exact ⟨.closed rfl (liesIn_inclusion lies _), by rintro ⟨_, _, ⟨⟩, -⟩⟩
        | @file _ _ _ _ _ _ inner script _ names isFile entered =>
            refine ⟨?_, by rintro ⟨_, _, ⟨⟩, -⟩⟩
            rcases enters _ _ _ _ _ _ entered with rfl | ⟨inner, read, below⟩
            · exact .closed rfl (liesIn_inclusion lies _)
            · exact .entered rfl (liesIn_inclusion lies _) (if_neg (Bool.eq_false_iff.1 isFile)) read
                below
        | other other within =>
            refine ⟨?_, id⟩
            cases coherent.1 with
            | declared _ _ accessors below =>
                obtain ⟨below', accessors'⟩ := inside below within
                exact .declared other lies (fun property => accessors' (accessors property)) below'
            | closed inclusion | entered inclusion =>
                rw [other] at inclusion
                cases inclusion
      simp only [List.forall_mem_cons]
      exact ⟨⟨head.1, whole⟩, fun each => ⟨head.2 each.1, accessors each.2⟩⟩

theorem coherent_of_scanText (enters : EntersCoherent host enter) {source : Source}
    (found : context.scanText host enter visited path text scope inClass =
      some (source, nodes, after)) : ∀ node ∈ nodes, Coherent host path text scope node := by
  obtain ⟨rfl, outline, base, scanned, linked⟩ := scanText_eq_some_iff.1 found
  exact (coherent_linkAll enters
    (coherent_of_scan? (reads_ofText context.version path text) scanned) linked).1

theorem entersCoherent_stay (host : Host) : EntersCoherent host stay := by
  rintro visited path scope inClass _ _ ⟨⟩
  exact .inl rfl

theorem entersCoherent_enter (context : IncludeContext) (host : Host) (depth : Nat) :
    EntersCoherent host (context.enter host depth) := by
  induction depth with
  | zero =>
      rintro visited path scope inClass _ _ ⟨⟩
      exact .inl rfl
  | succ depth ih =>
      intro visited path scope inClass nodes after entered
      rw [enter] at entered
      dsimp only at entered
      split at entered
      · cases entered
        exact .inl rfl
      · split at entered
        · cases entered
          exact .inl rfl
        next text read =>
          simp only [Option.pure_def, Option.bind_eq_bind, Option.bind_eq_some_iff, Option.some.injEq,
            Prod.mk.injEq, Prod.exists] at entered
          obtain ⟨source, _, _, found, rfl, rfl⟩ := entered
          exact .inr ⟨text, read, coherent_of_scanText ih found⟩

/-! ## Scanned scripts -/

/-- The ways to scan a script of a given name and text: on its own or with every file that it includes,
from the text or from the file system. -/
inductive Scanned (context : IncludeContext) (host : Host) (path : String) (text : List Char) :
    List Node → Prop
  | source {file : ScannedFile} (found : context.scanSource host path text = .ok file) :
      Scanned context host path text file.nodes
  | file {file : ScannedFile} (read : readScript host path = .ok text)
      (found : context.scanFile host path = .ok file) : Scanned context host path text file.nodes
  | withIncludes {nodes : List Node} (found : context.findInSource host path text = .ok nodes) :
      Scanned context host path text nodes
  | program {nodes : List Node} (read : readScript host path = .ok text)
      (found : context.findProgram host path = .ok nodes) : Scanned context host path text nodes

theorem coherent_of_scanSource {file : ScannedFile}
    (found : context.scanSource host path text = .ok file) :
    ∀ node ∈ file.nodes, Coherent host path text [] node := by
  rw [scanSource] at found
  split at found
  · next source nodes after scanned =>
    cases found
    exact coherent_of_scanText (entersCoherent_stay host) scanned
  · cases found

theorem coherent_of_findInSource (found : context.findInSource host path text = .ok nodes) :
    ∀ node ∈ nodes, Coherent host path text [] node := by
  rw [findInSource] at found
  split at found
  · next source _ after scanned =>
    cases found
    exact coherent_of_scanText (context.entersCoherent_enter host _) scanned
  · cases found

/-- A scanned script is coherent, outside of all names. -/
theorem Scanned.coherent (scanned : context.Scanned host path text nodes) :
    ∀ node ∈ nodes, Coherent host path text [] node := by
  cases scanned with
  | source found => exact coherent_of_scanSource found
  | file read found =>
      rw [scanFile, read] at found
      exact coherent_of_scanSource found
  | withIncludes found => exact coherent_of_findInSource found
  | program read found =>
      rw [findProgram, read] at found
      exact coherent_of_findInSource found

/-- The script that a node with given nodes around it, outermost first, was found in, by name and text:
the one that the innermost include around it names. -/
def scriptUnder? (host : Host) (path : String) (text : List Char) :
    List Node → Option (String × List Char)
  | [] => some (path, text)
  | node :: inner =>
    if node.kind.isInclusion then do
      let script ← host.included? node
      let text ← (readScript host script).toOption
      scriptUnder? host script text inner
    else scriptUnder? host path text inner

theorem scriptUnder?_other {node : Node} (other : node.kind.isInclusion = false)
    (inner : List Node) :
    scriptUnder? host path text (node :: inner) = scriptUnder? host path text inner := by
  rw [scriptUnder?, if_neg (Bool.eq_false_iff.1 other)]

theorem scriptUnder?_inclusion {node : Node} (inclusion : node.kind.isInclusion = true)
    {script : String} (names : host.included? node = some script) {within : List Char}
    (read : readScript host script = .ok within) (inner : List Node) :
    scriptUnder? host path text (node :: inner) = scriptUnder? host script within inner := by
  rw [scriptUnder?, if_pos inclusion, names, Option.bind_eq_bind, Option.bind_some, read]
  rfl

end IncludeContext

namespace Node

/-- A node of a forest, with the nodes around it from the outermost one on. -/
inductive Within : List Node → List Node → Node → Prop
  | root {nodes : List Node} {node : Node} (member : node ∈ nodes) : Within nodes [] node
  | inner {nodes outer : List Node} {parent node : Node} (member : parent ∈ nodes)
      (inside : Within parent.nested outer node) : Within nodes (parent :: outer) node

theorem Within.child {nodes outer : List Node} {parent child : Node}
    (within : Within nodes outer parent) (member : child ∈ parent.nested) :
    Within nodes (outer ++ [parent]) child := by
  induction within with
  | root place => exact .inner place (.root member)
  | inner place inside ih => exact .inner place (ih member)

/-- A node of coherent trees has the scope that the nodes around it make, in the script that it was found
in. -/
theorem Within.coherent {host : Host} {nodes outer : List Node} {node : Node}
    (within : Within nodes outer node) {path : String} {text : List Char} {scope : List String}
    (coherent : ∀ node ∈ nodes, Coherent host path text scope node) :
    ∃ script, IncludeContext.scriptUnder? host path text outer = some script ∧
      Coherent host script.1 script.2 (scope ++ outer.filterMap name?) node := by
  induction within generalizing path text scope with
  | root member => exact ⟨(path, text), rfl, by simpa using coherent _ member⟩
  | @inner nodes outer parent node member inside ih =>
      cases coherent parent member with
      | @declared _ _ kind _ location nested other lies accessors below =>
          obtain ⟨script, found, here⟩ := ih below
          refine ⟨script, ?_, ?_⟩
          · rwa [IncludeContext.scriptUnder?_other
              (show (mk kind scope location nested).kind.isInclusion = false from other)]
          · have names : (mk kind scope location nested :: outer).filterMap name? =
                kind.name?.toList ++ outer.filterMap name? := by
              cases named : kind.name? with
              | none => exact List.filterMap_cons_none named
              | some name => exact List.filterMap_cons_some named
            rwa [names, ← List.append_assoc]
      | closed inclusion lies => cases inside with | _ member => cases member
      | @entered _ script _ inner kind _ location nested inclusion lies names read below =>
          obtain ⟨script', found, here⟩ := ih below
          refine ⟨script', ?_, ?_⟩
          · rwa [IncludeContext.scriptUnder?_inclusion
              (show (mk kind scope location nested).kind.isInclusion = true from inclusion) names read]
          · obtain ⟨_, _, _, rfl⟩ := Kind.isInclusion_iff.1 inclusion
            exact here

end Node

namespace IncludeContext

open Node Source

variable {context : IncludeContext} {host : Host} {path : String} {text : List Char}
  {nodes : List Node}

/-- What the scopes, the places and the headers of the nodes of a script say. -/
structure Describes (host : Host) (path : String) (text : List Char) (nodes : List Node) : Prop where
  outermost : ∀ node ∈ nodes, node.scope = []
  declared : ∀ outer parent, Within nodes outer parent → ∀ name ∈ parent.name?,
    ∀ child ∈ parent.nested, child.scope = parent.scope ++ [name]
  included : ∀ outer inclusion, Within nodes outer inclusion → inclusion.kind.isInclusion = true →
    ∀ node ∈ inclusion.nested, node.scope = inclusion.scope
  accessor : ∀ outer property, Within nodes outer property → property.kind.isProperty = true →
    ∀ accessor ∈ property.nested, accessor.IsAccessor
  inAccessor : ∀ outer property, Within nodes outer property → property.kind.isProperty = true →
    ∀ accessor ∈ property.nested, accessor.location.text.toList.head? ≠ some '\u017F' →
      ∀ child ∈ accessor.nested,
        child.scope = accessor.scope ++ ["get"] ∨ child.scope = accessor.scope ++ ["set"]
  qualified : ∀ outer node, Within nodes outer node → node.qualifiedName? =
    node.name?.map fun name => ".".intercalate (outer.filterMap name? ++ [name])
  placed : ∀ outer node, Within nodes outer node → ∃ script,
    scriptUnder? host path text outer = some script ∧
      node.location.LiesIn script.1 script.2 node.kind
  headed : ∀ outer node, Within nodes outer node → ∀ line ∈ node.kind.braceLine?,
    node.location.start < node.location.stop ∧ node.location.first.line ≤ line ∧
      line ≤ node.location.last.line

/-- In every scanned script each node has the names around it as its scope, and lies where its location
says in the script that it was found in. -/
theorem describes_of_scanned (scanned : context.Scanned host path text nodes) :
    Describes host path text nodes := by
  have all {outer : List Node} {node : Node} (within : Within nodes outer node) :
      ∃ script, scriptUnder? host path text outer = some script ∧
        Coherent host script.1 script.2 (outer.filterMap name?) node := by
    simpa using within.coherent scanned.coherent
  have scope_eq {outer : List Node} {node : Node} (within : Within nodes outer node) :
      node.scope = outer.filterMap name? := by
    obtain ⟨script, -, coherent⟩ := all within
    exact coherent.scope_eq
  have inside {outer : List Node} {parent child : Node} (within : Within nodes outer parent)
      (member : child ∈ parent.nested) : child.scope = parent.scope ++ parent.name?.toList := by
    rw [scope_eq within, scope_eq (within.child member), List.filterMap_append]
    cases named : parent.name? <;> simp [named]
  have accessor {outer : List Node} {property accessor : Node} (within : Within nodes outer property)
      (isProperty : property.kind.isProperty = true) (member : accessor ∈ property.nested) :
      accessor.IsAccessor := by
    obtain ⟨script, -, coherent⟩ := all within
    exact coherent.accessors isProperty accessor member
  have placed {outer : List Node} {node : Node} (within : Within nodes outer node) :
      ∃ script, scriptUnder? host path text outer = some script ∧
        node.location.LiesIn script.1 script.2 node.kind := by
    obtain ⟨script, found, coherent⟩ := all within
    exact ⟨script, found, coherent.lies⟩
  refine ⟨?_, ?_, ?_, ?_, ?_, ?_, ?_, ?_⟩
  · intro node member
    exact scope_eq (.root member)
  · intro outer parent within name named child member
    rw [inside within member, named]
    rfl
  · intro outer inclusion within isInclusion node member
    have unnamed : inclusion.name? = none := by
      obtain ⟨_, _, _, eq⟩ := Kind.isInclusion_iff.1 isInclusion
      rw [name?, eq]
      rfl
    rw [inside within member, unnamed]
    simp
  · intro outer property within isProperty child member
    exact accessor within isProperty member
  · intro outer property within isProperty child member plain grandchild member'
    obtain ⟨name, braceLine, kind_eq, names⟩ := accessor within isProperty member
    have named : child.name? = some name := by rw [name?, kind_eq]; rfl
    rw [inside (within.child member) member', named]
    rcases names with rfl | rfl | ⟨-, long⟩
    · exact .inl rfl
    · exact .inr rfl
    · exact absurd long plain
  · intro outer node within
    rw [qualifiedName?, scope_eq within]
  · intro outer node within
    exact placed within
  · intro outer node within line lined
    obtain ⟨script, -, lies⟩ := placed within
    exact lies.lines lined

/-- A class with a property that an include shows, with a method in the getter. -/
theorem describes_of_scanned_getter :
    ∃ nodes, Scanned ⟨.v2, "a.ahk", none, "/", none⟩
        (.ofScripts [("b.ahk", "P \x7b\nget \x7b\nF() \x7b\n\x7d\n\x7d\n\x7d\n")]) "a.ahk"
        "class A \x7b\n#Include b.ahk\n\x7d\n".toList nodes ∧
      Describes (.ofScripts [("b.ahk", "P \x7b\nget \x7b\nF() \x7b\n\x7d\n\x7d\n\x7d\n")]) "a.ahk"
        "class A \x7b\n#Include b.ahk\n\x7d\n".toList nodes := by
  have succeeds : (findInSource ⟨.v2, "a.ahk", none, "/", none⟩
      (.ofScripts [("b.ahk", "P \x7b\nget \x7b\nF() \x7b\n\x7d\n\x7d\n\x7d\n")]) "a.ahk"
      "class A \x7b\n#Include b.ahk\n\x7d\n".toList).toOption.any fun nodes =>
        (inclusionsAll false nodes).any fun entry => !entry.2.nested.isEmpty := by
    decide +kernel
  obtain ⟨nodes, found, -⟩ := exists_ok_of_any succeeds
  exact ⟨nodes, .withIncludes found, describes_of_scanned (.withIncludes found)⟩

/-- What stands in a setter whose keyword has a long s is found under the name with the long s. -/
theorem scope_in_long_setter : ∃ file, scanSource ⟨.v2, "a.ahk", none, "/", none⟩ ⟨⟨[], []⟩, ⟨[]⟩⟩
      "a.ahk"
      "class A \x7b\n  Value \x7b\n    \u017Fet \x7b\n      F() \x7b\n      \x7d\n    \x7d\n  \x7d\n\x7d\n".toList =
        .ok file ∧
    ∃ outer property, Within file.nodes outer property ∧ property.kind.isProperty = true ∧
      ∃ accessor ∈ property.nested, ∃ child ∈ accessor.nested,
        child.scope ≠ accessor.scope ++ ["get"] ∧ child.scope ≠ accessor.scope ++ ["set"] := by
  have succeeds : (scanSource ⟨.v2, "a.ahk", none, "/", none⟩ ⟨⟨[], []⟩, ⟨[]⟩⟩ "a.ahk"
      "class A \x7b\n  Value \x7b\n    \u017Fet \x7b\n      F() \x7b\n      \x7d\n    \x7d\n  \x7d\n\x7d\n".toList).toOption.any
        fun file => file.nodes.any fun outer => outer.nested.any fun property => property.kind.isProperty &&
          property.nested.any fun accessor => accessor.nested.any fun child =>
            child.scope ≠ accessor.scope ++ ["get"] ∧ child.scope ≠ accessor.scope ++ ["set"] := by
    decide +kernel
  obtain ⟨file, scanned, found⟩ := exists_ok_of_any succeeds
  simp only [List.any_eq_true, Bool.and_eq_true, decide_eq_true_eq] at found
  obtain ⟨outer, root, property, member, isProperty, accessor, inside, child, below, other⟩ := found
  exact ⟨file, scanned, [outer], property, .inner root (.root member), isProperty, accessor, inside,
    child, below, other⟩

end IncludeContext
end DebugBridge
