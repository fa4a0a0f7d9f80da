import DebugBridge.Proofs.Script.Turn
import DebugBridge.Script.Scan

/-!
# Scans of laid out lines

A scan goes from turn to turn.  It passes over blank lines, assignments and what is left of a line
around the braces of a block; elsewhere it finds a node, with what was scanned inside.
-/

namespace DebugBridge

open Layout Text Source

namespace Source

variable {source : Source} {pos limit : Nat} {scope : List String} {inClass : Bool}

/-- The nodes in a range, if there is a range. -/
def within? (source : Source) (range : Option (Nat × Nat)) (scope : List String)
    (inClass : Bool) : Option (List Node) :=
  match range with
  | none => some []
  | some range => source.scan? range.1 range.2 scope inClass

/-- The node of an accessor. -/
def accessorNode? (source : Source) (scope : List String) (accessor : Opener) : Option Node := do
  let inside ← source.within? accessor.inside (scope ++ accessor.kind.name?.toList) false
  return .mk accessor.kind scope accessor.location inside

/-- A scan from outside of its range finds nothing. -/
theorem scan?_outside (outside : ¬ (pos < limit ∧ pos < source.size)) :
    source.scan? pos limit scope inClass = some [] := by
  rw [scan?, dif_neg outside]

/-- A scan gets no further than its turns. -/
theorem scan?_stuck (inFile : pos < limit ∧ pos < source.size)
    (turn : source.turnAt? pos limit inClass = none) :
    source.scan? pos limit scope inClass = none := by
  rw [scan?, dif_pos inFile]
  split
  next stuck => rfl
  next other pass =>
    rw [turn] at pass
    cases pass
  next opener accessors next found =>
    rw [turn] at found
    cases found

/-- A scan goes on where a turn without a construct says. -/
theorem scan?_pass {next : Nat} (inFile : pos < limit ∧ pos < source.size)
    (turn : source.turnAt? pos limit inClass = some (.pass next)) :
    source.scan? pos limit scope inClass = source.scan? next limit scope inClass := by
  rw [scan?, dif_pos inFile]
  split
  next stuck =>
    rw [turn] at stuck
    cases stuck
  next other pass =>
    rw [turn] at pass
    cases pass
    rfl
  next opener accessors next found =>
    rw [turn] at found
    cases found

/-- What a scan makes of a construct that it finds. -/
theorem scan?_eq_bind {opener : Opener} {accessors : List Opener} {next : Nat}
    (inFile : pos < limit ∧ pos < source.size)
    (turn : source.turnAt? pos limit inClass = some (.found opener accessors next)) :
    source.scan? pos limit scope inClass = (do
      let inner := scope ++ opener.kind.name?.toList
      let inside ← source.within? opener.inside inner opener.kind.isClass
      let nested ← accessors.mapM (source.accessorNode? inner)
      let others ← source.scan? next limit scope inClass
      return .mk opener.kind scope opener.location (inside ++ nested) :: others) := by
  rw [scan?, dif_pos inFile]
  split
  next stuck =>
    rw [turn] at stuck
    cases stuck
  next other pass =>
    rw [turn] at pass
    cases pass
  next opener accessors next found =>
    rw [turn] at found
    cases found
    dsimp only
    -- The scan recurs on accessors that know their membership, which the result does not need.
    rw [List.mapM_subtype (g := source.accessorNode? (scope ++ opener.kind.name?.toList)),
      List.unattach_attach]
    · split
      next outside => rw [outside]; rfl
      next range inside => rw [inside]; rfl
    · intro accessor mem
      rw [accessorNode?]
      split
      next outside => rw [outside]; rfl
      next range inside => rw [inside]; rfl

/-- A scan finds the node of a construct, with what is nested in it, and goes on after it. -/
theorem scan?_found {opener : Opener} {accessors : List Opener} {next : Nat}
    {inside nested : List Node} (inFile : pos < limit ∧ pos < source.size)
    (turn : source.turnAt? pos limit inClass = some (.found opener accessors next))
    (entered : source.within? opener.inside (scope ++ opener.kind.name?.toList)
      opener.kind.isClass = some inside)
    (accessed : accessors.mapM (source.accessorNode? (scope ++ opener.kind.name?.toList)) =
      some nested) :
    source.scan? pos limit scope inClass = (source.scan? next limit scope inClass).map
      (.mk opener.kind scope opener.location (inside ++ nested) :: ·) := by
  rw [scan?_eq_bind inFile turn]
  simp only [entered, accessed, Option.bind_eq_bind, Option.bind_some]
  cases source.scan? next limit scope inClass <;> rfl

/-- What goes from the turns of a scan to the scan holds of every scan that comes to an end.  The scan
goes on after a turn, and so do the scans of what opens there. -/
theorem scan?_induction {P : Nat → Nat → List String → Bool → List Node → Prop}
    (outside : ∀ {pos limit : Nat} {scope : List String} {inClass : Bool},
      ¬ (pos < limit ∧ pos < source.size) → P pos limit scope inClass [])
    (pass : ∀ {pos limit next : Nat} {scope : List String} {inClass : Bool} {nodes : List Node},
      pos < limit ∧ pos < source.size → source.turnAt? pos limit inClass = some (.pass next) →
      pos < next → source.scan? next limit scope inClass = some nodes →
      P next limit scope inClass nodes → P pos limit scope inClass nodes)
    (found : ∀ {pos limit next : Nat} {scope : List String} {inClass : Bool} {opener : Opener}
        {accessors : List Opener} {inside nested others : List Node},
      pos < limit ∧ pos < source.size →
      source.turnAt? pos limit inClass = some (.found opener accessors next) →
      source.within? opener.inside (scope ++ opener.kind.name?.toList) opener.kind.isClass =
        some inside →
      accessors.mapM (source.accessorNode? (scope ++ opener.kind.name?.toList)) = some nested →
      (∀ (range : Nat × Nat) scope inClass nodes, pos < range.1 →
        source.scan? range.1 range.2 scope inClass = some nodes →
        P range.1 range.2 scope inClass nodes) →
      pos < next → source.scan? next limit scope inClass = some others →
      P next limit scope inClass others →
      P pos limit scope inClass (.mk opener.kind scope opener.location (inside ++ nested) :: others))
    {nodes : List Node} (whole : source.scan? pos limit scope inClass = some nodes) :
    P pos limit scope inClass nodes := by
  induction size : source.size - pos using Nat.strong_induction_on
    generalizing pos limit scope inClass nodes with
  | h size ih =>
      by_cases inFile : pos < limit ∧ pos < source.size
      · have enter (range : Nat × Nat) (scope : List String) (inClass : Bool) (nodes : List Node)
            (later : pos < range.1)
            (found : source.scan? range.1 range.2 scope inClass = some nodes) :
            P range.1 range.2 scope inClass nodes := ih _ (by omega) found rfl
        cases turn : source.turnAt? pos limit inClass with
        | none =>
            rw [scan?_stuck inFile turn] at whole
            cases whole
        | some here =>
            obtain ⟨further, -⟩ := turnAt?_advances inFile.2 turn
            cases here with
            | pass next =>
                rw [scan?_pass inFile turn] at whole
                exact pass inFile turn further whole (enter (next, limit) _ _ _ further whole)
            | found opener accessors next =>
                rw [scan?_eq_bind inFile turn] at whole
                simp only [Option.pure_def, Option.bind_eq_bind, Option.bind_eq_some_iff,
                  Option.some.injEq] at whole
                obtain ⟨inside, entered, nested, accessed, others, rest, rfl⟩ := whole
                exact found inFile turn entered accessed enter further rest
                  (enter (next, limit) _ _ _ further rest)
      · rw [scan?_outside inFile] at whole
        cases whole
        exact outside inFile

/-- A scan from the end of the file on finds nothing, wherever it starts. -/
theorem scan?_min : source.scan? (min pos source.size) limit scope inClass =
    source.scan? pos limit scope inClass := by
  rcases Nat.le_total pos source.size with inside | outside
  · rw [Nat.min_eq_left inside]
  · rw [Nat.min_eq_right outside, scan?_outside (by omega), scan?_outside (by omega)]

variable {earlier later : List (List Char)} {line : List Char}

/-- A scan passes over a blank end of a line. -/
theorem scan?_blank (consists : source.Consists (earlier ++ line :: later))
    (before part : List Char) (split : line = before ++ part) (blank : ∀ c ∈ part, isIndent c)
    (plain : before = [] → Header.opensComment line = false)
    (inside : offsetAfter earlier + byteLength line ≤ limit) :
    source.scan? (offsetAfter earlier + byteLength before) limit scope inClass =
      source.scan? (offsetAfter (earlier ++ [line])) limit scope inClass := by
  have length : byteLength line = byteLength before + byteLength part := by
    rw [split, byteLength_append]
  have next := offsetAfter_concat earlier line
  by_cases inFile : offsetAfter earlier + byteLength before < limit ∧
      offsetAfter earlier + byteLength before < source.size
  · have whole : line = before ++ part ++ [] := by rw [split, List.append_nil]
    rw [scan?_pass inFile (turnAt?_blank consists before part [] whole (by omega) blank plain),
      scan?_min]
  · rw [scan?_outside inFile, scan?_outside (by omega)]

/-- A scan passes over a blank line. -/
theorem scan?_blankLine {blanks : Blanks}
    (consists : source.Consists (earlier ++ blanks.text :: later))
    (inside : offsetAfter earlier + byteLength blanks.text ≤ limit) :
    source.scan? (offsetAfter earlier) limit scope inClass =
      source.scan? (offsetAfter (earlier ++ [blanks.text])) limit scope inClass := by
  have noComment : Header.opensComment blanks.text = false := by
    rw [Header.opensComment, Header.skipIndent_of_indents blanks.indents]
    rfl
  exact scan?_blank consists [] blanks.text rfl blanks.indents (fun _ => noComment) inside

/-- A line that begins with a word is not past the end. -/
theorem inFile_of_word (consists : source.Consists (earlier ++ line :: later)) {indent : Blanks}
    {code : List Char} (written : line = indent.text ++ code)
    (begins : Header.endsWord code = false)
    (inside : offsetAfter earlier + byteLength line ≤ limit) :
    offsetAfter earlier < limit ∧ offsetAfter earlier < source.size := by
  have length : 0 < byteLength line := by
    cases code with
    | nil => cases begins
    | cons c rest =>
        have one := c.utf8Size_pos
        rw [written, byteLength_append, byteLength_cons]
        omega
  have size := consists.line_le_size
  omega

/-- A scan passes over an assignment. -/
theorem scan?_assignment {indent gap : Blanks} {target : Identifier} {value : Expression}
    (consists : source.Consists (earlier ++ assignmentLine indent target gap value :: later))
    (inside : offsetAfter earlier + byteLength (assignmentLine indent target gap value) ≤ limit) :
    source.scan? (offsetAfter earlier) limit scope inClass =
      source.scan? (offsetAfter (earlier ++ [assignmentLine indent target gap value])) limit scope
        inClass := by
  have begins := Header.endsWord_append target.nonempty target.words
    (gap.text ++ ':' :: '=' :: value.text)
  rw [scan?_pass (inFile_of_word consists rfl begins inside)
    ((turnAt?_word consists rfl begins inside).trans (declarationTurn?_assignment consists)),
    scan?_min]

/-- A scan finds a function whose body is an expression. -/
theorem scan?_arrow (scope : List String) (inClass : Bool) {indent gap : Blanks}
    {header : Signature} {body : Expression}
    (consists : source.Consists (earlier ++ arrowLine indent header gap body :: later))
    (inside : offsetAfter earlier + byteLength (arrowLine indent header gap body) ≤ limit)
    (boundary : isBoundary source.masked limit) :
    ∃ location, source.scan? (offsetAfter earlier) limit scope inClass =
        (source.scan? (offsetAfter (earlier ++ [arrowLine indent header gap body])) limit scope
          inClass).map (.mk (header.kind none) scope location [] :: ·) ∧
      location.first.line = earlier.length + 1 ∧ location.last.line = earlier.length + 1 := by
  have begins := header.begins (gap.text ++ '=' :: '>' :: body.text)
  obtain ⟨location, turn, lines⟩ :=
    declarationTurn?_arrow inClass consists inside boundary
  refine ⟨location, ?_, lines⟩
  rw [scan?_found (inFile_of_word consists rfl begins inside)
    ((turnAt?_word consists rfl begins inside).trans turn) rfl rfl, scan?_min]
  rfl

end Source

namespace Layout

open Source

variable {source : Source} {limit : Nat} {scope : List String}

/-! ## Around the braces of a block -/

section Block

variable {block : Block} (consists : source.Consists block.lines)

include consists

/-- A scan goes from the opening brace to the next line. -/
theorem scan?_openAt (scope : List String) (inClass : Bool) :
    source.scan? (block.openAt + 1) block.closeAt scope inClass =
      source.scan? block.inside block.closeAt scope inClass := by
  have start : block.openAt + 1 =
      offsetAfter (block.earlier ++ block.braces.front block.heading) +
        byteLength (block.braces.before block.heading ++ ['{']) := by
    rw [byteLength_append, ← Nat.add_assoc]
    rfl
  have next : block.inside = offsetAfter (block.earlier ++ block.braces.front block.heading ++
      [block.braces.braceLine block.heading]) := by
    rw [Block.inside, Braces.opened_eq, List.append_assoc]
  have before : offsetAfter (block.earlier ++ block.braces.front block.heading) +
      byteLength (block.braces.braceLine block.heading) < block.inside := by
    rw [next, offsetAfter_concat]
    omega
  have after : block.inside ≤ block.closeAt := by
    rw [Block.inside, Block.closeAt, offsetAfter_append (_ ++ _) block.body]
    omega
  rw [start, next]
  exact scan?_blank (Block.at_brace consists) (block.braces.before block.heading ++ ['{'])
    block.braces.behind.text (by simp [Braces.braceLine]) block.braces.behind.indents (by simp)
    (by omega)

/-- A scan finds nothing before the closing brace on its line. -/
theorem scan?_closing (scope : List String) (inClass : Bool) :
    source.scan? (offsetAfter (block.earlier ++ block.braces.opened block.heading ++ block.body))
      block.closeAt scope inClass = some [] := by
  by_cases before : offsetAfter (block.earlier ++ block.braces.opened block.heading ++ block.body) <
      block.closeAt
  · have size := Block.closeAt_lt_size consists
    have line := block.closeAt_lt
    have ended := block.closeAt_lt_closed
    have noComment : Header.opensComment block.braces.closing = false := by
      rw [Header.opensComment, Braces.closing, Header.skipIndent_append block.braces.close.indents,
        Header.skipIndent_of_head (by simp; decide)]
      rfl
    have turn : source.turnAt? (offsetAfter (block.earlier ++ block.braces.opened block.heading ++
        block.body)) block.closeAt inClass =
          some (.pass (min (offsetAfter block.closed) source.size)) :=
      turnAt?_blank (Block.at_closing consists) [] block.braces.close.text
        ('}' :: block.braces.after.text) rfl
        (by rw [Nat.min_eq_right (Nat.le_of_lt line)]; rfl) block.braces.close.indents
        (fun _ => noComment)
    rw [scan?_pass ⟨before, by omega⟩ turn, scan?_outside (by omega)]
  · exact scan?_outside (by omega)

/-- A scan goes from the closing brace to the next line. -/
theorem scan?_closeAt (scope : List String) (inClass : Bool)
    (inFile : offsetAfter block.closed ≤ limit + 1) :
    source.scan? (block.closeAt + 1) limit scope inClass =
      source.scan? (offsetAfter block.closed) limit scope inClass := by
  have start : block.closeAt + 1 =
      offsetAfter (block.earlier ++ block.braces.opened block.heading ++ block.body) +
        byteLength (block.braces.close.text ++ ['}']) := by
    rw [byteLength_append, ← Nat.add_assoc]
    rfl
  rw [Block.closed, offsetAfter_concat] at inFile
  rw [start]
  exact scan?_blank (Block.at_closing consists) (block.braces.close.text ++ ['}'])
    block.braces.after.text (by simp [Braces.closing]) block.braces.after.indents (by simp)
    (by omega)

/-- The accessors of a property are those on the lines of its block. -/
theorem accessors?_eq : source.accessors? block.openAt (block.closeAt + 1) =
    source.accessorsFrom 0 (startsFrom block.inside block.body) := by
  have last : source.lineOf block.closeAt =
      (block.earlier ++ block.braces.opened block.heading ++ block.body).length :=
    (Block.at_closing consists).lineOf_eq block.le_closeAt (Nat.le_of_lt block.closeAt_lt)
  have starts : source.lineStarts.toList =
      startsFrom 0 (block.earlier ++ block.braces.opened block.heading) ++
        (startsFrom block.inside block.body ++
          startsFrom
            (offsetAfter (block.earlier ++ block.braces.opened block.heading ++ block.body))
            (block.braces.closing :: block.later)) := by
    have split : block.lines = (block.earlier ++ block.braces.opened block.heading) ++
        (block.body ++ block.braces.closing :: block.later) := by
      simp [Block.lines]
    rw [consists.lineStarts_eq, List.toList_toArray, split, startsFrom_append 0 (_ ++ _),
      startsFrom_append _ block.body, offsetAfter_append (_ ++ _) block.body, Block.inside,
      Nat.zero_add]
  have before : ∀ start ∈ startsFrom 0 (block.earlier ++ block.braces.opened block.heading),
      ¬ (block.openAt < start) := by
    intro start mem
    rw [Braces.opened_eq, ← List.append_assoc] at mem
    simpa using Consists.not_lt_of_mem block.le_openAt mem
  have within : ∀ start ∈ startsFrom block.inside block.body,
      block.openAt < start ∧ source.lineOf start < source.lineOf block.closeAt := by
    intro start mem
    obtain ⟨_, _, _, _, place⟩ := exists_of_mem_startsFrom mem
    have number := ((Block.at_body consists).lineOf_of_mem_startsFrom mem).2
    rw [Block.inside_eq] at place
    rw [last, List.length_append]
    omega
  have after : ∀ start ∈ startsFrom
      (offsetAfter (block.earlier ++ block.braces.opened block.heading ++ block.body))
        (block.braces.closing :: block.later),
      ¬ (source.lineOf start < source.lineOf block.closeAt) := by
    intro start mem
    have lines : source.Consists ((block.earlier ++ block.braces.opened block.heading ++
        block.body) ++ ((block.braces.closing :: block.later) ++ [])) := by
      rw [List.append_nil]
      exact Block.at_closing consists
    have number := (lines.lineOf_of_mem_startsFrom mem).1
    omega
  rw [accessors?, starts, Nat.add_sub_cancel, List.filter_append, List.filter_append,
    List.filter_eq_nil_iff.2 fun start mem => by simp [before start mem],
    List.filter_eq_self.2 fun start mem => by simpa using within start mem,
    List.filter_eq_nil_iff.2 fun start mem => by simp [after start mem],
    List.nil_append, List.append_nil]

end Block

/-- Lines inside an accessor are passed over. -/
theorem accessorsFrom_skip {resume : Nat} {starts : List Nat} (rest : List Nat)
    (before : ∀ start ∈ starts, start < resume) :
    source.accessorsFrom resume (starts ++ rest) = source.accessorsFrom resume rest := by
  induction starts with
  | nil => rfl
  | cons start starts ih =>
      rw [List.forall_mem_cons] at before
      rw [List.cons_append, accessorsFrom, if_pos before.1, ih before.2]

end Layout
end DebugBridge
