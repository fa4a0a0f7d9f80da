import DebugBridge.Proofs.Script.Parallel

/-!
# Line endings

With a carriage return before every line break of a script, a scan finds the same nodes on the same
lines, the same lines can hold breakpoints, and a line breakpoint goes to the same line.  Only a
backtick at the end of a line would join the carriage return instead of the line break.
-/

namespace DebugBridge

/-! ## Nodes by lines -/

theorem Kind.bare_bare (kind : Kind) : kind.bare.bare = kind.bare := by cases kind <;> rfl

theorem Kind.isClass_of_bare {kind kind' : Kind} (kinds : kind'.bare = kind.bare) :
    kind'.isClass = kind.isClass := by
  have isClass_bare (kind : Kind) : kind.bare.isClass = kind.isClass := by cases kind <;> rfl
  rw [← isClass_bare, kinds, isClass_bare]

namespace Node

mutual

/-- A node by the lines over which it reaches, without its text, its columns and its parameters. -/
def sketch : Node → Node
  | .mk kind scope location nested => .mk kind.bare scope location.sketch (sketchAll nested)

/-- Nodes by the lines over which they reach. -/
def sketchAll : List Node → List Node
  | [] => []
  | node :: rest => sketch node :: sketchAll rest

end

/-- Whether nodes are the same ones by their lines. -/
def Parallel (nodes nodes' : List Node) : Prop := sketchAll nodes' = sketchAll nodes

variable {nodes nodes' others others' : List Node}

theorem sketchAll_append (nodes others : List Node) :
    sketchAll (nodes ++ others) = sketchAll nodes ++ sketchAll others := by
  induction nodes with
  | nil => rw [sketchAll, List.nil_append, List.nil_append]
  | cons node rest ih => rw [List.cons_append, sketchAll, sketchAll, ih, List.cons_append]

theorem Parallel.append (front : Parallel nodes nodes') (back : Parallel others others') :
    Parallel (nodes ++ others) (nodes' ++ others') := by
  rw [Parallel, sketchAll_append, sketchAll_append, front, back]

theorem Parallel.cons {kind kind' : Kind} {scope : List String} {location location' : Location}
    {nested nested' : List Node} (kinds : kind'.bare = kind.bare)
    (places : location'.sketch = location.sketch) (inside : Parallel nested nested')
    (rest : Parallel nodes nodes') :
    Parallel (.mk kind scope location nested :: nodes) (.mk kind' scope location' nested' :: nodes') := by
  rw [Parallel, sketchAll, sketchAll, sketch, sketch, kinds, places, inside, rest]

theorem alike_sketchAll (nodes : List Node) : Alike nodes (sketchAll nodes) := by
  induction nodes using forest_induction with
  | nil =>
      rw [sketchAll]
      exact .nil
  | cons kind scope location nested rest inside later =>
      rw [sketchAll, sketch]
      exact .cons kind.bare_bare rfl rfl (fun _ => inside) later

theorem Parallel.blockedLinesAll_eq (parallel : Parallel nodes nodes') :
    blockedLinesAll nodes' = blockedLinesAll nodes := by
  rw [← (alike_sketchAll nodes').blocked.1, parallel, (alike_sketchAll nodes).blocked.1]

end Node

/-! ## Scans -/

namespace Source

open Text Node

/-- Where a scan stops before a line break, nothing is left of the line. -/
theorem Reads.turnAt?_newline {source : Source} {text masked : List Char} (reads : source.Reads text masked)
    {pos : Nat} (newline : source.masked[pos]? = some 10) (inClass : Bool) :
    source.turnAt? pos pos inClass = some (.pass (source.nextLineStart pos)) := by
  have ends : source.lineEnd pos ≤ pos := Nat.le_of_not_lt fun inLine =>
    reads.ne_newline (reads.lineStart_le pos) inLine newline
  have boundary := (reads.between_of_byte newline (by decide) (by decide)).1.masked
  have empty (bytes : Array UInt8) {start stop : Nat} (le : stop ≤ start) :
      charsOf bytes start stop = [] := by
    rw [charsOf, extract_eq_nil le]
    exact utf8Lossy_utf8 []
  have segment : source.segment? pos pos = some [] := by
    rw [segment?, Nat.max_eq_right (Nat.min_le_right _ _), cut?, boundary, empty _ (Nat.le_refl _),
      decide_eq_true (Nat.le_refl pos)]
    rfl
  have noComment : (pos == source.lineStart pos && Header.opensComment (source.rawLine pos)) = false := by
    rw [Bool.and_eq_false_imp, beq_iff_eq]
    intro starts
    rw [rawLine, empty _ (by omega)]
    rfl
  rw [turnAt?, segment]
  simp only [Option.bind_eq_bind, Option.bind_some, noComment]
  rfl

namespace Returning

variable {source returned : Source} {returns : source.Returning returned} {pos limit : Nat}
  {scope : List String} {inClass : Bool}

variable (returns) in
/-- A scan that has come to where it stops finds nothing more, but may pass over a carriage return. -/
theorem scan?_close (reached : limit ≤ pos) :
    returned.scan? (returns.move pos) (returns.close limit) scope inClass = some [] := by
  by_cases inFile : returns.move pos < returns.close limit ∧ returns.move pos < returned.size
  -- Only before a line break is a byte left: the carriage return.
  · have before := inFile.1
    have inside := inFile.2
    have last := Nat.lt_trans before (returns.covers_close limit).2
    obtain rfl : limit = pos :=
      Nat.le_antisymm reached (Nat.le_of_lt_succ (returns.move_lt_move.1 last))
    obtain ⟨newline, stops⟩ := (returns.covers_close limit).cases.resolve_left (Nat.ne_of_gt before)
    rw [returns.size_move, returns.move_lt_move] at inside
    have turn := returns.turnAt?_rel inside (Nat.le_refl limit) inClass
    rw [returns.reads.turnAt?_newline newline] at turn
    generalize found : returned.turnAt? (returns.move limit) (returns.close limit) inClass = turn' at turn
    cases turn with
    | some here =>
        cases here
        have ended := returns.move_le_move.2
          (Nat.succ_le_of_lt (lt_nextLineStart (Nat.le_refl limit) inside))
        rw [returns.move_succ_of_newline newline] at ended
        rw [scan?_pass inFile found, scan?_outside (by omega)]
  · exact scan?_outside inFile

theorem within?_rel {inside : Option (Nat × Nat)}
    (enter : ∀ range ∈ inside, Option.Rel Parallel (source.scan? range.1 range.2 scope inClass)
      (returned.scan? (returns.move range.1) (returns.close range.2) scope inClass)) :
    Option.Rel Parallel (source.within? inside scope inClass)
      (returned.within? (inside.map fun range => (returns.move range.1, returns.close range.2)) scope
        inClass) := by
  cases inside with
  | none => exact .some rfl
  | some range => exact enter range rfl

theorem accessors_rel {accessors accessors' : List Opener}
    (each : List.Forall₂ returns.Matches accessors accessors')
    (enter : ∀ accessor ∈ accessors, ∀ range ∈ accessor.inside, ∀ scope,
      Option.Rel Parallel (source.scan? range.1 range.2 scope false)
        (returned.scan? (returns.move range.1) (returns.close range.2) scope false)) :
    Option.Rel Parallel (accessors.mapM (source.accessorNode? scope))
      (accessors'.mapM (returned.accessorNode? scope)) := by
  induction each with
  | nil => exact .some rfl
  | @cons accessor accessor' rest rest' here each ih =>
      rw [List.forall_mem_cons] at enter
      rw [List.mapM_cons, List.mapM_cons, accessorNode?, accessorNode?, here.inside_eq,
        name?_of_bare here.kinds]
      simp only [Option.pure_def, Option.bind_eq_bind, Option.bind_assoc, Option.bind_some]
      refine rel_bind (within?_rel fun range member => enter.1 range member _)
        fun inside inside' within => ?_
      exact rel_bind (ih enter.2) fun others others' parallel =>
        .some (.cons here.kinds here.places within parallel)

/-- What a scan finds in a range, it finds where the range has gone. -/
theorem scan?_rel (pos limit : Nat) (scope : List String) (inClass : Bool) :
    Option.Rel Parallel (source.scan? pos limit scope inClass)
      (returned.scan? (returns.move pos) (returns.close limit) scope inClass) := by
  induction size_eq : source.size - pos using Nat.strong_induction_on
    generalizing pos limit scope inClass with
  | h size ih =>
      subst size_eq
      by_cases inFile : pos < limit ∧ pos < source.size
      · have inFile' : returns.move pos < returns.close limit ∧ returns.move pos < returned.size := by
          rw [returns.size_move, returns.move_lt_move]
          exact ⟨Nat.lt_of_lt_of_le (returns.move_lt_move.2 inFile.1) (returns.covers_close limit).1,
            inFile.2⟩
        have turns := returns.turnAt?_rel inFile.2 (Nat.le_of_lt inFile.1) inClass
        generalize turn : source.turnAt? pos limit inClass = found at turns
        generalize turn' : returned.turnAt? (returns.move pos) (returns.close limit) inClass = found'
          at turns
        cases turns with
        | none =>
            rw [scan?_stuck inFile turn, scan?_stuck inFile' turn']
            exact .none
        | some here =>
            obtain ⟨further, deeper⟩ := turnAt?_advances inFile.2 turn
            cases here with
            | pass next =>
                rw [scan?_pass inFile turn, scan?_pass inFile' turn']
                exact ih _ (Nat.sub_lt_sub_left inFile.2 further) next limit scope inClass rfl
            | @found opener opener' accessors accessors' next here each =>
                have enter (range : Nat × Nat) (scope : List String) (inClass : Bool)
                    (member : range ∈ (Turn.found opener accessors next).insides) :
                    Option.Rel Parallel (source.scan? range.1 range.2 scope inClass)
                      (returned.scan? (returns.move range.1) (returns.close range.2) scope inClass) :=
                  ih _ (Nat.sub_lt_sub_left inFile.2 (deeper range member)) _ _ scope inClass rfl
                rw [scan?_eq_bind inFile turn, scan?_eq_bind inFile' turn', here.inside_eq,
                  name?_of_bare here.kinds, Kind.isClass_of_bare here.kinds]
                refine rel_bind (within?_rel fun range member => enter range _ _ ?_) fun _ _ within => ?_
                · simp [Turn.insides, Option.mem_def.1 member]
                refine rel_bind (accessors_rel each fun accessor place range member scope =>
                  enter range _ _ ?_) fun _ _ nested => ?_
                · simp only [Turn.insides, List.mem_append, List.mem_filterMap]
                  exact .inr ⟨accessor, place, member⟩
                exact rel_bind (ih _ (Nat.sub_lt_sub_left inFile.2 further) next limit scope inClass rfl)
                  fun _ _ others => .some (.cons here.kinds here.places (within.append nested) others)
      · rw [scan?_outside inFile]
        rcases Nat.lt_or_ge pos source.size with inside | outside
        · rw [returns.scan?_close (by omega)]
          exact .some rfl
        · have beyond := returns.move_le_move.2 outside
          rw [← returns.size_move] at beyond
          rw [scan?_outside (by omega)]
          exact .some rfl

/-! ## Lines -/

include returns in
theorem lineText?_padded (line : Nat) :
    Option.Rel (fun code code' => trim code'.toList = trim code.toList)
      (source.lineText? line) (returned.lineText? line) := by
  cases line with
  | zero => exact .none
  | succ line =>
      rw [returns.reads.lineText?_succ, returns.reads'.lineText?_succ, returns.lineStarts_eq,
        Array.getElem?_map]
      cases source.lineStarts[line]? with
      | none => exact .none
      | some start =>
          refine .some ?_
          rw [String.toList_ofList, String.toList_ofList]
          exact (returns.maskedLine_padded (returns.covers_move start).lineOf_eq).eq_of
            Header.trim_trailing

end Returning

/-- A text and the text with carriage returns, as files. -/
def returningOfText (version : Version) (path : String) {text : List Char} (plain : '\r' ∉ text)
    (joined : ¬ ['\x60', '\n'] <:+: text) :
    (ofText version path text).Returning (ofText version path (withReturns text)) where
  text := text
  masked := maskSource version text
  text' := withReturns text
  masked' := maskSource version (withReturns text)
  path_eq := rfl
  reads := reads_ofText version path text
  reads' := reads_ofText version path (withReturns text)
  plain := fun member => ((reads_ofText version path text).masks.mem member).elim plain (by decide)
  text_returned := returned_utf8 text
  masked_returned := Mask.returned_maskFrom trivial plain joined fun _ => .inl ⟨true, rfl⟩

end Source

namespace Follower

/-- Where no file is entered, what becomes of nodes can be told by their lines. -/
theorem linkAll_sketchAll (follower : Follower) {inClass : Bool} {walk last : Walk}
    {nodes linked : List Node}
    (found : Node.linkAll follower.staying inClass walk nodes = some (linked, last)) :
    Node.linkAll follower.staying inClass walk (Node.sketchAll nodes) =
      some (Node.sketchAll linked, last) := by
  induction nodes using Node.forest_induction generalizing inClass walk last linked with
  | nil =>
      obtain ⟨rfl, rfl⟩ := linkAll_nil.1 found
      rw [Node.sketchAll, Node.linkAll]
  | cons kind scope location nested rest inside later =>
      obtain ⟨first, between, others, links, tail, rfl⟩ := linkAll_cons.1 found
      rw [Node.sketchAll, Node.sketchAll]
      refine linkAll_cons.2 ⟨_, _, _, ?_, later tail, rfl⟩
      rw [Node.sketch]
      cases links with
      | unresolved fails => exact .unresolved fails
      | directory names directory => exact .directory names directory
      | file names file enters =>
          cases enters
          exact .file names file rfl
      | other other here =>
          rw [Node.sketch]
          refine .other (by cases kind <;> exact other) ?_
          rw [Kind.isClass_of_bare kind.bare_bare]
          exact inside here

end Follower

/-! ## Scanned files -/

namespace ScannedFile

/-- What a scanned file is by its lines: its nodes, the lines that they block, and the lines to which
line breakpoints go. -/
structure Sketch where
  nodes : List Node
  blocked : List Nat
  resolve : Nat → LineResolution

/-- A scanned file by its lines. -/
def sketch (file : ScannedFile) : Sketch :=
  ⟨Node.sketchAll file.nodes, file.blockedLines, file.resolveLine⟩

theorem sketch_returning {source returned : Source} (returns : source.Returning returned)
    {nodes nodes' : List Node} (parallel : Node.Parallel nodes nodes') :
    sketch ⟨returned, nodes'⟩ = sketch ⟨source, nodes⟩ := by
  have code (line : Nat) : hasCode ⟨returned, nodes'⟩ line = hasCode ⟨source, nodes⟩ line := by
    have text := returns.lineText?_padded line
    rw [hasCode, hasCode]
    dsimp only
    generalize source.lineText? line = found at text ⊢
    generalize returned.lineText? line = found' at text ⊢
    cases text with
    | none => rfl
    | some same =>
        dsimp only
        rw [same]
  have count : lineCount ⟨returned, nodes'⟩ = lineCount ⟨source, nodes⟩ := by
    rw [lineCount, lineCount, Source.lineCount, Source.lineCount, returns.lineStarts_eq, Array.size_map]
  have blocked : blockedLines ⟨returned, nodes'⟩ = blockedLines ⟨source, nodes⟩ :=
    parallel.blockedLinesAll_eq
  have resolve : resolveLine ⟨returned, nodes'⟩ = resolveLine ⟨source, nodes⟩ := by
    funext requested
    simp only [resolveLine, blocked, count, code]
  rw [sketch, sketch, blocked, resolve]
  exact congrArg (Sketch.mk · _ _) parallel

end ScannedFile

namespace IncludeContext

open Text

/-- Line endings do not matter.  If no line of a text ends in a backtick, the text and the text with a
carriage return before each line break scan alike: to nodes of the same kinds in the same scopes on the
same lines, with the same blocked lines, and a line breakpoint goes to the same line; or neither can be
scanned. -/
theorem scanSource_withReturns (context : IncludeContext) (host : Host) (path : String)
    {text : List Char} (plain : '\r' ∉ text) (joined : ¬ ['\x60', '\n'] <:+: text) :
    (context.scanSource host path (withReturns text)).map ScannedFile.sketch =
      (context.scanSource host path text).map ScannedFile.sketch := by
  have returns := Source.returningOfText context.version path plain joined
  have scans := @Source.Returning.scan?_rel _ _ returns 0 (Source.ofText context.version path text).size
    [] false
  rw [returns.move_zero, returns.close_size] at scans
  generalize scanned : (Source.ofText context.version path text).scan? 0 _ [] false = found at scans
  generalize scanned' : (Source.ofText context.version path (withReturns text)).scan? 0 _ [] false =
    found' at scans
  cases scans with
  | none =>
      rw [scanSource, scanSource, scanText, scanText]
      dsimp only
      rw [scanned, scanned']
      rfl
  | @some outline outline' parallel =>
      have links (outline : List Node) : ∃ linked, Node.linkAll (context.follower host path stay) false
          ⟨[], context.initialBase path⟩ outline = some linked :=
        Follower.exists_linkAll (fun _ _ _ _ => ⟨_, rfl⟩) outline false _
      obtain ⟨⟨nodes, last⟩, linked⟩ := links outline
      obtain ⟨⟨nodes', last'⟩, linked'⟩ := links outline'
      have sketched := (context.follower host path stay).linkAll_sketchAll linked
      have sketched' := (context.follower host path stay).linkAll_sketchAll linked'
      rw [parallel, sketched] at sketched'
      have same : Node.Parallel nodes nodes' := (congrArg Prod.fst (Option.some.inj sketched')).symm
      rw [scanSource, scanSource, scanText_eq_some_iff.2 ⟨rfl, outline, _, scanned, linked⟩,
        scanText_eq_some_iff.2 ⟨rfl, outline', _, scanned', linked'⟩]
      exact congrArg Except.ok (ScannedFile.sketch_returning returns same)

/-- A function after a comment. -/
def commented : String := "/* a\nb */\nF(x) \x7b\nreturn x ; done\n\x7d\n"

theorem scanSource_withReturns_commented :
    '\r' ∉ commented.toList ∧ ¬ ['\x60', '\n'] <:+: commented.toList ∧ ∃ file file',
      inMain.scanSource (Host.ofScripts []) "main.ahk" commented.toList = .ok file ∧
      inMain.scanSource (Host.ofScripts []) "main.ahk" (withReturns commented.toList) = .ok file' ∧
      file'.sketch = file.sketch ∧ file.blockedLines = [1, 2, 3] ∧ file'.resolveLine 1 = ⟨4, true⟩ := by
  have plain : '\r' ∉ commented.toList := by decide
  have joined : ¬ ['\x60', '\n'] <:+: commented.toList := by decide
  have looks : (inMain.scanSource (Host.ofScripts []) "main.ahk" commented.toList).toOption.any
      fun file => file.blockedLines == [1, 2, 3] && file.resolveLine 1 == ⟨4, true⟩ := by
    decide +kernel
  obtain ⟨file, scanned, looks⟩ := exists_ok_of_any looks
  rw [Bool.and_eq_true, beq_iff_eq, beq_iff_eq] at looks
  have same := scanSource_withReturns inMain (Host.ofScripts []) "main.ahk" plain joined
  rw [scanned] at same
  cases returned : inMain.scanSource (Host.ofScripts []) "main.ahk" (withReturns commented.toList) with
  | error message =>
      rw [returned] at same
      cases same
  | ok file' =>
      rw [returned] at same
      have same : file'.sketch = file.sketch := Except.ok.inj same
      have goes := congrArg (fun sketch : ScannedFile.Sketch => sketch.resolve 1) same
      exact ⟨plain, joined, file, file', scanned, rfl, same, looks.1, goes.trans looks.2⟩

end IncludeContext
end DebugBridge
