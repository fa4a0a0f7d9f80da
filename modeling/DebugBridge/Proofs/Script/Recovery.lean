import DebugBridge.Proofs.Script.Linking
import DebugBridge.Proofs.Script.Scan

/-!
# Recovery of laid out scripts

The scan of a script that a forest was laid out to finds the forest: its declarations with their
nesting, names, modifiers, parameters and lines, and nothing else.  What is found in some lines and
in the lines after them is found in all of them (`Finds.append`), so the proof follows the forest.
-/

namespace DebugBridge

open Layout Text Source

/-! ## Outlines of nodes -/

mutual

/-- What a node is without its offsets and columns. -/
def Node.outline : Node → Outline
  | .mk kind scope location nested =>
    .mk kind scope location.first.line location.last.line (Node.outlineAll nested)

/-- What the nodes of a list are without their offsets and columns. -/
def Node.outlineAll : List Node → List Outline
  | [] => []
  | node :: rest => node.outline :: Node.outlineAll rest

end

namespace Node

theorem outlineAll_append (nodes others : List Node) :
    outlineAll (nodes ++ others) = outlineAll nodes ++ outlineAll others := by
  induction nodes with
  | nil => rw [outlineAll, List.nil_append, List.nil_append]
  | cons node nodes ih => rw [List.cons_append, outlineAll, ih, outlineAll, List.cons_append]

/-- Includes are resolved in some nodes and then in those after them. -/
theorem linkAll_append (follower : Follower) (inClass : Bool) (walk : Walk)
    (nodes others : List Node) : linkAll follower inClass walk (nodes ++ others) = (do
      let (nodes, walk) ← linkAll follower inClass walk nodes
      let (others, walk) ← linkAll follower inClass walk others
      return (nodes ++ others, walk)) := by
  induction nodes generalizing walk with
  | nil => cases found : linkAll follower inClass walk others <;> simp [linkAll, found]
  | cons node nodes ih => simp [linkAll, ih, Option.bind_assoc]

/-- Whether nodes hold no include directive that would have to be resolved. -/
def Settled (nodes : List Node) : Prop :=
  ∀ follower inClass walk, linkAll follower inClass walk nodes = some (nodes, walk)

theorem settled_nil : Settled [] := fun follower inClass walk => by rw [linkAll]

theorem Settled.append {nodes others : List Node} (first : Settled nodes)
    (second : Settled others) : Settled (nodes ++ others) := by
  intro follower inClass walk
  rw [linkAll_append, first]
  simp [second follower inClass walk]

/-- A declaration is settled if what is nested in it is. -/
theorem Settled.singleton {kind : Kind} {name : String} (named : kind.name? = some name)
    {scope : List String} {location : Location} {nested : List Node} (inner : Settled nested) :
    Settled [.mk kind scope location nested] := by
  intro follower inClass walk
  have other : kind.isInclusion = false := by
    cases kind with
    | skip | inclusion => cases named
    | classDef | function | property => rfl
  exact Follower.linkAll_cons.2 ⟨_, walk, [], .other other (inner follower _ walk),
    Follower.linkAll_nil.2 ⟨rfl, rfl⟩, rfl⟩

/-- Whether nodes are what outlines say, without anything else to resolve. -/
structure Recovers (nodes : List Node) (outlines : List Outline) : Prop where
  outlined : outlineAll nodes = outlines
  settled : Settled nodes

theorem recovers_nil : Recovers [] [] := ⟨by rw [outlineAll], settled_nil⟩

theorem Recovers.append {nodes others : List Node} {first second : List Outline}
    (recovers : Recovers nodes first) (after : Recovers others second) :
    Recovers (nodes ++ others) (first ++ second) :=
  ⟨by rw [outlineAll_append, recovers.outlined, after.outlined],
    recovers.settled.append after.settled⟩

theorem Recovers.singleton {kind : Kind} {name : String} (named : kind.name? = some name)
    {scope : List String} {location : Location} {nested : List Node} {first last : Nat}
    {inner : List Outline} (starts : location.first.line = first)
    (stops : location.last.line = last) (inside : Recovers nested inner) :
    Recovers [.mk kind scope location nested] [.mk kind scope first last inner] :=
  ⟨by simp [outlineAll, outline, inside.outlined, starts, stops],
    inside.settled.singleton named⟩

end Node

namespace Layout

open Source Node

variable {source : Source} {limit : Nat} {scope : List String} {place inner : Place}

/-! ## What is found in lines -/

/-- Whether a scan finds some outlines in some lines, wherever the lines stand.  The outlines are
given by the number of the first line and the scope. -/
def Finds (inClass : Bool) (lines : List (List Char))
    (outlines : Nat → List String → List Outline) : Prop :=
  ∀ (source : Source) (earlier later : List (List Char)) (limit : Nat) (scope : List String),
    source.Consists (earlier ++ (lines ++ later)) →
    offsetAfter (earlier ++ lines) ≤ limit + 1 → isBoundary source.masked limit →
    ∃ nodes, Recovers nodes (outlines (earlier.length + 1) scope) ∧
      source.scan? (offsetAfter earlier) limit scope inClass =
        (source.scan? (offsetAfter (earlier ++ lines)) limit scope inClass).map (nodes ++ ·)

theorem finds_nil (inClass : Bool) : Finds inClass [] fun _ _ => [] := by
  intro source earlier later limit scope _ _ _
  refine ⟨[], recovers_nil, ?_⟩
  simp

/-- A scan finds what is in some lines and then what is in the lines after them. -/
theorem Finds.append {inClass : Bool} {lines rest : List (List Char)}
    {outlines others : Nat → List String → List Outline} (first : Finds inClass lines outlines)
    (second : Finds inClass rest others) :
    Finds inClass (lines ++ rest) fun number scope =>
      outlines number scope ++ others (number + lines.length) scope := by
  intro source earlier later limit scope consists room boundary
  have before : source.Consists (earlier ++ (lines ++ (rest ++ later))) := by
    simpa using consists
  have after : source.Consists ((earlier ++ lines) ++ (rest ++ later)) := by
    simpa using consists
  rw [← List.append_assoc] at room ⊢
  obtain ⟨nodes, recovers, found⟩ := first source earlier (rest ++ later) limit scope before
    (by rw [offsetAfter_append _ rest] at room; omega) boundary
  obtain ⟨more, recovered, next⟩ := second source (earlier ++ lines) later limit scope after room
    boundary
  rw [List.length_append, Nat.add_right_comm] at recovered
  refine ⟨nodes ++ more, recovers.append recovered, ?_⟩
  rw [found, next, Option.map_map]
  simp only [Function.comp_def, List.append_assoc]

/-- A scan finds nothing in a line that it passes over. -/
theorem finds_line {inClass : Bool} {line : List Char}
    (passed : ∀ {source : Source} {earlier later : List (List Char)} {limit : Nat}
      {scope : List String}, source.Consists (earlier ++ line :: later) →
      offsetAfter earlier + byteLength line ≤ limit →
      source.scan? (offsetAfter earlier) limit scope inClass =
        source.scan? (offsetAfter (earlier ++ [line])) limit scope inClass) :
    Finds inClass [line] fun _ _ => [] := by
  intro source earlier later limit scope consists room _
  rw [offsetAfter_concat] at room
  refine ⟨[], recovers_nil, ?_⟩
  rw [passed consists (by omega)]
  simp

/-- A scan finds a function in its line. -/
theorem finds_arrow (inClass : Bool) (indent : Blanks) (header : Signature) (gap : Blanks)
    (body : Expression) : Finds inClass [arrowLine indent header gap body] fun number scope =>
      [.mk (header.kind none) scope number number []] := by
  intro source earlier later limit scope consists room boundary
  rw [offsetAfter_concat] at room
  obtain ⟨location, found, first, last⟩ := scan?_arrow scope inClass consists (by omega)
    boundary
  exact ⟨_, .singleton rfl first last recovers_nil, found⟩

section Within

variable {block : Block} (consists : source.Consists block.lines)

include consists

/-- A scan finds what a block was laid out from. -/
theorem exists_within (scope : List String) {inClass : Bool}
    {outlines : Nat → List String → List Outline} (finds : Finds inClass block.body outlines) :
    ∃ nodes, Recovers nodes (outlines (block.braceNumber + 1) scope) ∧
      source.within? (some block.range) scope inClass = some nodes := by
  obtain ⟨nodes, recovers, found⟩ := finds source _ _ block.closeAt scope (Block.at_body consists)
    (by rw [Block.closeAt]; omega) (Block.isBoundary_closeAt consists)
  rw [block.length_opened] at recovers
  refine ⟨nodes, recovers, ?_⟩
  show source.scan? (block.openAt + 1) block.closeAt scope inClass = some nodes
  rw [scan?_openAt consists, Block.inside, found, scan?_closing consists, Option.map_some,
    List.append_nil]

end Within

/-! ## Accessors -/

/-- Whether accessors with some outlines are found on the starts of some lines, wherever the lines
stand.  The outlines are given by the number of the first line and the scope. -/
def FindsAccessors (lines : List (List Char))
    (outlines : Nat → List String → List Outline) : Prop :=
  ∀ (source : Source) (earlier later : List (List Char)) (resume : Nat) (scope : List String),
    source.Consists (earlier ++ (lines ++ later)) → resume ≤ offsetAfter earlier →
    ∃ accessors nodes next, next ≤ offsetAfter (earlier ++ lines) ∧
      (∀ starts, source.accessorsFrom resume (startsFrom (offsetAfter earlier) lines ++ starts) =
        (source.accessorsFrom next starts).map (accessors ++ ·)) ∧
      accessors.mapM (source.accessorNode? scope) = some nodes ∧
      Recovers nodes (outlines (earlier.length + 1) scope)

theorem findsAccessors_nil : FindsAccessors [] fun _ _ => [] := by
  intro source earlier later resume scope _ passed
  refine ⟨[], [], resume, by simpa using passed, fun starts => ?_, rfl, recovers_nil⟩
  simp [startsFrom]

/-- Accessors are found on some lines and then on the lines after them. -/
theorem FindsAccessors.append {lines rest : List (List Char)}
    {outlines others : Nat → List String → List Outline} (first : FindsAccessors lines outlines)
    (second : FindsAccessors rest others) :
    FindsAccessors (lines ++ rest) fun number scope =>
      outlines number scope ++ others (number + lines.length) scope := by
  intro source earlier later resume scope consists passed
  have before : source.Consists (earlier ++ (lines ++ (rest ++ later))) := by
    simpa using consists
  have after : source.Consists ((earlier ++ lines) ++ (rest ++ later)) := by
    simpa using consists
  obtain ⟨accessors, nodes, next, ended, found, mapped, recovers⟩ :=
    first source earlier (rest ++ later) resume scope before passed
  obtain ⟨more, added, last, ended', found', mapped', recovered⟩ :=
    second source (earlier ++ lines) later next scope after ended
  rw [List.length_append, Nat.add_right_comm] at recovered
  refine ⟨accessors ++ more, nodes ++ added, last, ?_, fun starts => ?_, ?_,
    recovers.append recovered⟩
  · rwa [← List.append_assoc]
  · rw [startsFrom_append, ← offsetAfter_append, List.append_assoc, found, found', Option.map_map]
    simp only [Function.comp_def, List.append_assoc]
  · simp [List.mapM_append, mapped, mapped']

/-- A blank line has no accessor. -/
theorem findsAccessors_blank (blanks : Blanks) : FindsAccessors [blanks.text] fun _ _ => [] := by
  intro source earlier later resume scope consists passed
  refine ⟨[], [], resume, ?_, fun starts => ?_, rfl, recovers_nil⟩
  · rw [offsetAfter_append]
    omega
  · have masked : source.maskedLine (offsetAfter earlier) = blanks.text :=
      consists.maskedLine_eq (Nat.le_refl _) (Nat.le_add_right _ _)
    have none : source.accessor? (offsetAfter earlier) = some none := by
      rw [accessor?, masked, Header.accessorHeader?_blank]
    rw [startsFrom, startsFrom, List.singleton_append, accessorsFrom,
      if_neg (Nat.not_lt.2 passed), none]
    simp

/-! ## Forests -/

/-- The lines of a block. -/
def blockLines (braces : Braces) (heading : List Char) (body : List (List Char)) :
    List (List Char) :=
  braces.opened heading ++ body ++ [braces.closing]

/-- The outline of a block. -/
def blockOutlines (heading : Heading place inner) (braces : Braces) (body : Forest inner)
    (number : Nat) (scope : List String) : List Outline :=
  [.mk (heading.kind (number + braces.opening.more.length)) scope number
    (number + braces.opening.more.length + body.lines.length + 1)
    (body.outlines (number + braces.opening.more.length + 1) (scope ++ [heading.name]))]

theorem Forest.lines_block (heading : Heading place inner) (braces : Braces) (body : Forest inner)
    (rest : Forest place) : (Forest.block heading braces body rest).lines =
      blockLines braces heading.text body.lines ++ rest.lines := by
  simp [Forest.lines, blockLines]

theorem Forest.outlines_block (heading : Heading place inner) (braces : Braces)
    (body : Forest inner) (rest : Forest place) (number : Nat) (scope : List String) :
    (Forest.block heading braces body rest).outlines number scope =
      blockOutlines heading braces body number scope ++
        rest.outlines (number + (blockLines braces heading.text body.lines).length) scope := by
  have length : number + (blockLines braces heading.text body.lines).length =
      number + braces.opening.more.length + body.lines.length + 1 + 1 := by
    simp only [blockLines, Braces.opened, List.length_append, List.length_cons, List.length_nil]
    omega
  rw [length]
  rfl

/-- A scan finds a block and what is nested in it. -/
def IsDeclared (source : Source) (block : Block) (limit : Nat) (scope : List String)
    (heading : Heading place inner) (body : Forest inner) : Prop :=
  ∃ location inside accessors nodes nested,
    source.declarationTurn? block.start limit place.isClass
      (block.head ++ block.braces.opening.tail) =
        some (block.found heading location inside accessors) ∧
    block.Spans location ∧
    source.within? inside (scope ++ [heading.name]) (heading.kind block.braceNumber).isClass =
      some nodes ∧
    accessors.mapM (source.accessorNode? (scope ++ [heading.name])) = some nested ∧
    Recovers (nodes ++ nested)
      (body.outlines (block.braceNumber + 1) (scope ++ [heading.name]))

section Declared

variable {block : Block} {heading : Heading place inner} {body : Forest inner}
  (consists : source.Consists block.lines)
  (fits : block.start + byteLength (block.head ++ block.braces.opening.tail) ≤ limit)

include consists

/-- Classes and functions are declared with what is scanned in them. -/
theorem isDeclared_of_finds
    (finds : Finds inner.isClass block.body fun number scope => body.outlines number scope)
    (sameClass : (heading.kind block.braceNumber).isClass = inner.isClass)
    (found : ∃ location, source.declarationTurn? block.start limit place.isClass
        (block.head ++ block.braces.opening.tail) =
      some (block.found heading location (some block.range) []) ∧ block.Spans location) :
    IsDeclared source block limit scope heading body := by
  obtain ⟨location, turn, spans⟩ := found
  obtain ⟨nodes, recovers, within⟩ :=
    exists_within consists (scope ++ [heading.name]) finds
  rw [← sameClass] at within
  exact ⟨location, _, [], nodes, [], turn, spans, within, rfl, by rwa [List.append_nil]⟩

include fits in
/-- A property is declared with its accessors. -/
theorem isDeclared_property {modifier : Option Modifier} {name : Identifier}
    {params : Option (Blanks × Params)} {body : Forest .propertyBody}
    (written : block.heading = (Heading.property modifier name params).text)
    (balanced : Balanced (begun block.body))
    (finds : FindsAccessors block.body fun number scope => body.outlines number scope) :
    IsDeclared source block limit scope (.property modifier name params) body := by
  obtain ⟨accessors, nodes, next, _, accessed, mapped, recovers⟩ :=
    finds source _ _ 0 (scope ++ [String.ofList name.text]) (Block.at_body consists)
      (Nat.zero_le _)
  have inner : source.accessors? block.openAt (block.closeAt + 1) = some accessors := by
    have all := accessed []
    rw [List.append_nil, accessorsFrom] at all
    rw [accessors?_eq consists, Block.inside, all]
    simp
  rw [block.length_opened] at recovers
  obtain ⟨location, turn, spans⟩ :=
    declarationTurn?_property consists balanced fits written inner
  exact ⟨location, none, accessors, [], nodes, turn, spans, rfl, mapped, recovers⟩

end Declared

/-- A scan finds a block in its lines. -/
theorem finds_block {heading : Heading place inner} {braces : Braces} {body : Forest inner}
    (declared : ∀ (source : Source) (block : Block) (limit : Nat) (scope : List String),
      source.Consists block.lines → block.heading = heading.text → block.body = body.lines →
      block.start + byteLength (block.head ++ block.braces.opening.tail) ≤ limit →
      isBoundary source.masked limit → IsDeclared source block limit scope heading body) :
    Finds place.isClass (blockLines braces heading.text body.lines)
      (blockOutlines heading braces body) := by
  intro source earlier later limit scope consists room boundary
  let block : Block := ⟨earlier, braces, heading.text, body.lines, later⟩
  have whole : source.Consists block.lines := by
    simpa [block, Block.lines, blockLines] using consists
  have closed : earlier ++ blockLines braces heading.text body.lines = block.closed := by
    simp [block, Block.closed, blockLines]
  rw [closed] at room ⊢
  have fits : block.start + byteLength (block.head ++ block.braces.opening.tail) ≤ limit := by
    have header := block.start_lt_closeAt
    have closing := block.closeAt_lt_closed
    omega
  -- The line of the header is not blank, so the turn of the scan is that of the declaration.
  have begins : Header.endsWord (heading.text ++ braces.opening.tail) = false :=
    Header.endsWord_append_left heading.begins _
  have line : block.head ++ block.braces.opening.tail =
      block.braces.indent.text ++ (heading.text ++ block.braces.opening.tail) :=
    List.append_assoc _ _ _
  obtain ⟨location, inside, accessors, nodes, nested, turn, ⟨first, last⟩, within, accessed,
    recovers⟩ := declared source block limit scope whole rfl rfl fits boundary
  refine ⟨[.mk (heading.kind block.braceNumber) scope location (nodes ++ nested)],
    .singleton (heading.name?_kind _) first last recovers, ?_⟩
  have header := Block.at_header whole
  have entered : source.within? inside
      (scope ++ (heading.kind block.braceNumber).name?.toList)
      (heading.kind block.braceNumber).isClass = some nodes := by
    rw [Heading.name?_kind]
    exact within
  have mapped : accessors.mapM (source.accessorNode?
      (scope ++ (heading.kind block.braceNumber).name?.toList)) = some nested := by
    rw [Heading.name?_kind]
    exact accessed
  have turns := (turnAt?_word header line begins fits).trans turn
  have closing := scan?_closeAt whole scope place.isClass room
  rw [scan?_found (inFile_of_word header line begins fits) turns entered mapped, closing]
  rfl

/-- An accessor is found in its lines. -/
theorem findsAccessors_block {word : String} {isAccessor : word ∈ ["get", "set"]}
    {keyword : Keyword word.toList} {braces : Braces} {body : Forest .code}
    (finds : Finds false body.lines fun number scope => body.outlines number scope) :
    FindsAccessors (blockLines braces (Heading.accessor word isAccessor keyword).text body.lines)
      (blockOutlines (.accessor word isAccessor keyword) braces body) := by
  intro source earlier later resume scope consists passed
  let heading := Heading.accessor word isAccessor keyword
  let block : Block := ⟨earlier, braces, heading.text, body.lines, later⟩
  have whole : source.Consists block.lines := by
    simpa [block, heading, Block.lines, blockLines] using consists
  have closed : earlier ++ blockLines braces heading.text body.lines = block.closed := by
    simp [block, Block.closed, blockLines]
  have next : source.nextLineStart block.closeAt = min (offsetAfter block.closed) source.size :=
    (Block.at_closing whole).nextLineStart_eq block.le_closeAt (Nat.le_of_lt block.closeAt_lt)
  obtain ⟨location, found, first, last⟩ :=
    accessor?_accessor whole body.balanced (show block.heading = heading.text from rfl)
  obtain ⟨nodes, recovers, within⟩ := exists_within whole (scope ++ [word]) finds
  refine ⟨[⟨heading.kind block.braceNumber, location, some block.range⟩],
    [.mk (heading.kind block.braceNumber) scope location nodes],
    source.nextLineStart block.closeAt, ?_, fun starts => ?_, ?_,
    .singleton (heading.name?_kind _) first last recovers⟩
  · rw [closed, next]
    exact Nat.min_le_left _ _
  · -- The first line is the accessor's; the others start before its closing brace and are skipped.
    have inside : ∀ start ∈ startsFrom (block.start +
        byteLength (block.head ++ block.braces.opening.tail) + 1)
          (block.braces.opening.more ++ block.body ++ [block.braces.closing]),
        start < source.nextLineStart block.closeAt := by
      intro start mem
      have last := block.le_closeAt_of_mem (List.mem_cons_of_mem _ mem)
      have size := Block.closeAt_lt_size whole
      have closing := block.closeAt_lt_closed
      rw [next]
      omega
    have lines : startsFrom (offsetAfter earlier) (blockLines braces heading.text body.lines) =
        block.start :: startsFrom (block.start +
          byteLength (block.head ++ block.braces.opening.tail) + 1)
            (block.braces.opening.more ++ block.body ++ [block.braces.closing]) := by
      rw [blockLines, Braces.opened, List.cons_append, List.cons_append, startsFrom]
      rfl
    rw [lines, List.cons_append, accessorsFrom,
      if_neg (show ¬ (block.start < resume) from Nat.not_lt.2 passed), found]
    simp only [Option.bind_eq_bind, Option.bind_some]
    rw [accessorsFrom_skip _ inside]
    cases source.accessorsFrom (source.nextLineStart block.closeAt) starts <;> rfl
  · have node : source.accessorNode? scope
        ⟨heading.kind block.braceNumber, location, some block.range⟩ =
          some (.mk (heading.kind block.braceNumber) scope location nodes) := by
      rw [accessorNode?]
      dsimp only
      rw [Heading.name?_kind]
      exact congrArg (· >>= _) within
    rw [List.mapM_cons, node]
    rfl

/-- What a scan finds in a forest is the forest: what it declares, and in a property its
accessors. -/
theorem Forest.found (forest : Forest place) :
    (place ≠ .propertyBody →
      Finds place.isClass forest.lines fun number scope => forest.outlines number scope) ∧
    (place = .propertyBody →
      FindsAccessors forest.lines fun number scope => forest.outlines number scope) := by
  -- Both at once: a class needs the accessors of its properties, whose bodies are scanned again.
  induction forest with
  | done => exact ⟨fun _ => finds_nil _, fun _ => findsAccessors_nil⟩
  | blank blanks rest ih =>
      constructor
      · exact fun place => (finds_line scan?_blankLine).append (ih.1 place)
      · exact fun place => (findsAccessors_blank blanks).append (ih.2 place)
  | assignment declares indent target gap value rest ih =>
      constructor
      · exact fun place => (finds_line scan?_assignment).append (ih.1 place)
      · exact fun place => absurd place declares
  | arrow declares indent header gap body rest ih =>
      constructor
      · exact fun place => (finds_arrow _ indent header gap body).append (ih.1 place)
      · exact fun place => absurd place declares
  | block heading braces body rest inside after =>
      simp only [Forest.lines_block, Forest.outlines_block]
      constructor
      · intro place
        refine Finds.append (finds_block ?_) (after.1 place)
        intro source block limit scope consists written lines fits boundary
        have balanced : Balanced (begun block.body) := lines ▸ body.balanced
        cases heading with
        | classDef declares keyword gap name base =>
            exact isDeclared_of_finds consists (lines ▸ inside.1 (by decide)) rfl
              (declarationTurn?_classDef consists balanced written)
        | function declares header =>
            exact isDeclared_of_finds consists (lines ▸ inside.1 (by decide)) rfl
              (declarationTurn?_block consists balanced fits boundary written)
        | property modifier name params =>
            exact isDeclared_property consists fits written balanced (lines ▸ inside.2 rfl)
        | accessor word isAccessor keyword => exact absurd rfl place
      · intro place
        cases heading with
        | classDef declares keyword gap name base => exact absurd place declares
        | function declares header => exact absurd place declares
        | property modifier name params => cases place
        | accessor word isAccessor keyword =>
            exact (findsAccessors_block (inside.1 (by decide))).append (after.2 rfl)

end Layout

namespace IncludeContext

open Layout

/-- A text of lines is scanned on its own to what its forest declares. -/
theorem scanSource_of_nonempty (context : IncludeContext) (host : Host) (path : String)
    (forest : Forest .code) (nonempty : forest.lines ≠ []) :
    ∃ scanned, context.scanSource host path (joinLines forest.lines) = .ok scanned ∧
      Node.outlineAll scanned.nodes = forest.outlines 1 [] := by
  let source := Source.ofText context.version path (joinLines forest.lines)
  have isLine : ∀ line ∈ forest.lines, IsLine line := fun line mem c inside =>
    (isInert_of_tame (forest.tame line mem) c inside).2
  have inert : ∀ c ∈ joinLines forest.lines, isInert c := by
    intro c mem
    rcases mem_joinLines mem with rfl | ⟨line, place, inside⟩
    · decide
    · exact (isInert_of_tame (forest.tame line place) c inside).1
  have consists : source.Consists forest.lines :=
    consists_ofText path nonempty isLine (maskSource_of_isInert context.version inert)
  have size := consists.size_succ nonempty
  have boundary : isBoundary source.masked source.size := by
    simp [isBoundary, Source.size]
  obtain ⟨nodes, ⟨outlined, settled⟩, found⟩ := forest.found.1 (by decide) source [] [] source.size
    [] (by simpa using consists) (by simp [size]) boundary
  have scanned : source.scan? 0 source.size [] false = some nodes := by
    refine found.trans ?_
    rw [scan?_outside (by rw [List.nil_append]; omega), Option.map_some, List.append_nil]
  refine ⟨⟨source, nodes⟩, ?_, outlined⟩
  have text : context.scanText host stay [] path (joinLines forest.lines) [] false =
      some (source, nodes, []) := by
    rw [scanText]
    dsimp only
    rw [scanned]
    simp only [Option.bind_eq_bind, Option.bind_some, settled _ false _]
    rfl
  rw [scanSource, text]

/-- Every script that a forest was laid out to is scanned to exactly that forest: its declarations
with their nesting, names, modifiers, parameters, brace lines, scopes and lines. -/
theorem scanSource_forest (context : IncludeContext) (host : Host) (path : String)
    (forest : Forest .code) :
    ∃ scanned, context.scanSource host path (joinLines forest.lines) = .ok scanned ∧
      Node.outlineAll scanned.nodes = forest.outlines 1 [] := by
  cases forest with
  | done =>
      exact context.scanSource_of_nonempty host path
        (.blank ⟨[], List.forall_mem_nil _⟩ .done) (List.cons_ne_nil _ _)
  | blank blanks rest => exact context.scanSource_of_nonempty host path _ (List.cons_ne_nil _ _)
  | assignment declares indent target gap value rest =>
      exact context.scanSource_of_nonempty host path _ (List.cons_ne_nil _ _)
  | arrow declares indent header gap body rest =>
      exact context.scanSource_of_nonempty host path _ (List.cons_ne_nil _ _)
  | block heading braces body rest =>
      exact context.scanSource_of_nonempty host path _ (List.cons_ne_nil _ _)

/-- A class with a method of two parameters, whose brace is on a line of its own. -/
example :
    let bare : Blanks := ⟨[], List.forall_mem_nil _⟩
    let blank : Blanks := ⟨[' '], List.forall_mem_singleton.2 rfl⟩
    let name (c : Char) (word : Text.isWord c = true)
        (free : Header.isKeyword [c] = false) : Identifier :=
      ⟨[c], List.cons_ne_nil _ _, List.forall_mem_singleton.2 word, free⟩
    let params : Params :=
      .ofNames [(bare, name 'a' (by decide) (by decide), bare),
        (blank, name 'b' (by decide) (by decide), bare)]
    let method : Heading .classBody .code :=
      .function (by decide) ⟨none, name 'F' (by decide) (by decide), params⟩
    let outer : Heading .code .classBody :=
      .classDef (by decide) ⟨"class".toList, rfl⟩ ⟨blank, by decide⟩
        (name 'A' (by decide) (by decide)) none
    let forest : Forest .code :=
      .block outer ⟨bare, .sameLine blank bare, bare, bare, by decide⟩
        (.block method ⟨blank, .nextLine bare blank bare, bare, bare, by decide⟩ .done .done) .done
    joinLines forest.lines = "class A \x7b\n F(a, b)\n \x7b\n\x7d\n\x7d".toList ∧
      forest.outlines 1 [] = [.mk (.classDef "A" none 1) [] 1 5
        [.mk (.function "F" false "a, b" (some 3)) ["A"] 2 4 []]] :=
  ⟨rfl, rfl⟩

end IncludeContext
end DebugBridge
