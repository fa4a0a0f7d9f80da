import DebugBridge.Proofs.Script.Extent

/-!
# Lines and positions

The line table says of every offset on which line it is, and it says so of one line only.  The line
and the column of an offset lead back to the offset, and later offsets have later positions.  The
bounds of the lines divide a file: between them are all of its bytes but the line breaks and the
carriage returns that stand directly before a line break or at the end.
-/

namespace DebugBridge

/-- Whether a position is on an earlier line than another one, or on the same line and before it. -/
def Position.Precedes (position later : Position) : Prop :=
  position.line < later.line ∨ position.line = later.line ∧ position.column < later.column

namespace Source

open Text Mask

/-- Whether a line starts no later than at an offset, and the next line, if there is one, after it. -/
def LineHolds (source : Source) (line index : Nat) : Prop :=
  ∃ start, source.lineStarts[line]? = some start ∧ start ≤ index ∧
    ∀ next, source.lineStarts[line + 1]? = some next → index < next

/-- Where a line starts, and where its text ends. -/
def bounds? (source : Source) (line : Nat) : Option (Nat × Nat) :=
  (source.lineStarts[line]?).map fun start =>
    (start, source.lineStop start source.lineStarts[line + 1]?)

/-- Whether a line break is at an offset, or a carriage return directly before one or at the end. -/
def BreaksAt (source : Source) (index : Nat) : Prop :=
  source.masked[index]? = some 10 ∨ source.masked[index]? = some 13 ∧
    (source.masked[index + 1]? = some 10 ∨ index + 1 = source.size)

/-- A file that is divided by the bounds of its lines. -/
structure Divided (source : Source) : Prop where
  /-- Every line has bounds. -/
  bounded : ∀ line, (∃ bounds, source.bounds? line = some bounds) ↔ line < source.lineCount
  /-- They are in the file. -/
  inside : ∀ line bounds, source.bounds? line = some bounds →
    bounds.1 ≤ bounds.2 ∧ bounds.2 ≤ source.size
  /-- A line ends before a later one starts. -/
  apart : ∀ line later bounds others, line < later → source.bounds? line = some bounds →
    source.bounds? later = some others → bounds.2 < others.1
  /-- They leave out the line breaks and the carriage returns that belong to them, nothing else. -/
  encloses : ∀ index, index < source.size →
    ((∃ line bounds, source.bounds? line = some bounds ∧ bounds.1 ≤ index ∧ index < bounds.2) ↔
      ¬ source.BreaksAt index)
  /-- What they enclose is the text of the line. -/
  text : ∀ line, source.lineText? (line + 1) = (source.bounds? line).map fun bounds =>
    String.ofList (charsOf source.masked bounds.1 bounds.2)

/-- The file with nothing masked. -/
def unmasked (source : Source) : Source := { source with masked := source.text }

theorem masks_self (text : List Char) : Masks text text := by
  induction text with
  | nil => exact .nil
  | cons c text ih => exact .keep c ih

/-- A line ends at its line break or with the file, or at a carriage return before that. -/
theorem lineStop_cases (source : Source) {start stop : Nat} {next? : Option Nat}
    (ends : next? = some (stop + 1) ∨ next? = none ∧ source.size = stop) :
    source.lineStop start next? + 1 = stop ∧ source.masked[source.lineStop start next?]? = some 13 ∨
      source.lineStop start next? = stop ∧ (start < stop → source.masked[stop - 1]? ≠ some 13) := by
  have eq : source.lineStop start next? =
      if start < stop && source.byteAt (stop - 1) == 13 then stop - 1 else stop := by
    rcases ends with rfl | ⟨rfl, rfl⟩
    · rfl
    · rfl
  rw [eq]
  split
  next isReturn =>
    rw [Bool.and_eq_true, decide_eq_true_eq, beq_iff_eq] at isReturn
    exact .inl ⟨by omega, getElem?_of_byteAt isReturn.2 (by decide)⟩
  next other =>
    refine .inr ⟨rfl, fun nonempty isReturn => other ?_⟩
    rw [Bool.and_eq_true, decide_eq_true_eq, beq_iff_eq, byteAt, Array.getD_eq_getD_getElem?,
      isReturn]
    exact ⟨nonempty, rfl⟩

namespace Reads

variable {source : Source} {text masked : List Char} (reads : source.Reads text masked)

include reads

theorem unmasked : source.unmasked.Reads text text :=
  ⟨reads.text_eq, reads.text_eq, masks_self text, reads.lineStarts_eq⟩

/-! ## Lines -/

theorem lt_of_getElem? {line later start next : Nat} (before : line < later)
    (here : source.lineStarts[line]? = some start) (there : source.lineStarts[later]? = some next) :
    start < next := by
  rw [← Array.getElem?_toList] at here there
  obtain ⟨first, rfl⟩ := List.getElem?_eq_some_iff.1 here
  obtain ⟨second, rfl⟩ := List.getElem?_eq_some_iff.1 there
  exact List.pairwise_iff_getElem.1 reads.pairwise_lineStarts _ _ first second before

/-- The line of an offset holds it, and no other line does. -/
theorem lineHolds_iff (line index : Nat) :
    source.LineHolds line index ↔ line = source.lineOf index := by
  constructor
  · rintro ⟨start, here, lower, upper⟩
    have onLine := (reads.onLine_of_getElem? here).same lower fun next member => by
      -- The next line starts after the offset, and later lines after the next line.
      obtain ⟨place, inside, rfl⟩ := List.getElem_of_mem member
      rw [List.length_drop, Array.length_toList] at inside
      have second : source.lineStarts[line + 1]? = some source.lineStarts[line + 1] :=
        Array.getElem?_eq_getElem (by omega)
      have there : source.lineStarts[line + 1 + place]? =
          some source.lineStarts[line + 1 + place] := Array.getElem?_eq_getElem (by omega)
      rw [List.getElem_drop, Array.getElem_toList]
      have first := upper _ second
      rcases Nat.eq_zero_or_pos place with rfl | later
      · exact first
      · exact Nat.lt_trans first (reads.lt_of_getElem? (by omega) second there)
    obtain ⟨inside, -⟩ := Array.getElem?_eq_some_iff.1 here
    rw [onLine.lineOf_eq reads, List.length_take, Array.length_toList]
    omega
  · rintro rfl
    obtain ⟨earlier, start, later, onLine⟩ := reads.exists_onLine index
    refine ⟨start, ?_, onLine.lower, fun next there => onLine.upper next ?_⟩
    · rw [reads.getElem?_lineOf, onLine.lineStart_eq reads]
    · rw [onLine.lineOf_eq reads, onLine.starts, List.getElem?_toArray,
        List.getElem?_append_right (Nat.le_add_right _ 1), Nat.add_sub_cancel_left,
        List.getElem?_cons_succ] at there
      exact List.mem_of_getElem? there

theorem bounds?_eq (line : Nat) : source.bounds? line =
    (source.lineStarts[line]?).map fun start => (start, source.lineEnd start) := by
  rw [bounds?]
  cases here : source.lineStarts[line]? with
  | none => rfl
  | some start =>
      have onLine := reads.onLine_of_getElem? here
      rw [Option.map_some, Option.map_some, lineEnd, onLine.lineStart_eq reads,
        onLine.find?_eq reads, List.head?_drop, Array.getElem?_toList]

theorem exists_of_bounds? {line : Nat} {bounds : Nat × Nat} (found : source.bounds? line = some bounds) :
    source.lineStarts[line]? = some bounds.1 ∧ bounds.1 ∈ source.lineStarts ∧
      bounds.2 = source.lineEnd bounds.1 := by
  rw [reads.bounds?_eq, Option.map_eq_some_iff] at found
  obtain ⟨start, here, rfl⟩ := found
  exact ⟨here, Array.mem_of_getElem? here, rfl⟩

/-! ## What is on a line -/

/-- A carriage return at the end of the text of a line stands before another byte. -/
theorem of_return_before_lineEnd {start : Nat} (member : start ∈ source.lineStarts)
    (nonempty : start < source.lineEnd start)
    (isReturn : source.masked[source.lineEnd start - 1]? = some 13) :
    source.masked[source.lineEnd start]? ≠ some 10 ∧ source.lineEnd start ≠ source.size := by
  obtain ⟨earlier, first, later, onLine⟩ := reads.exists_onLine start
  have starts := onLine.lineStart_eq reads
  rw [reads.lineStart_of_mem member] at starts
  subst starts
  obtain ⟨stop, -, stops, -⟩ := onLine.exists_stop reads
  have ends : later.head? = some (stop + 1) ∨ later.head? = none ∧ source.size = stop := by
    rcases stops with ⟨head, -⟩ | ⟨rfl, eq⟩
    · exact .inl head
    · exact .inr ⟨rfl, eq.symm⟩
  have cases := @lineStop_cases source start stop later.head? ends
  have eq : source.lineStop start later.head? = source.lineEnd start := by
    rw [lineEnd, reads.lineStart_of_mem member, onLine.find?_eq reads]
  rw [eq] at cases
  rcases cases with ⟨-, byte⟩ | ⟨eq, other⟩
  · refine ⟨?_, Nat.ne_of_lt (Array.getElem?_eq_some_iff.1 byte).1⟩
    rw [byte]
    decide
  · rw [eq] at nonempty isReturn
    exact absurd isReturn (other nonempty)

theorem not_breaksAt {start index : Nat} (member : start ∈ source.lineStarts) (after : start ≤ index)
    (before : index < source.lineEnd start) : ¬ source.BreaksAt index := by
  have plain {place : Nat} (after : start ≤ place) (before : place < source.lineEnd start) :
      source.masked[place]? ≠ some 10 := by
    intro newline
    have next : place + 1 ∈ source.lineStarts := reads.mem_lineStarts.2 (.inr ⟨place, newline, rfl⟩)
    have ends := reads.lineEnd_lt next (Nat.lt_succ_of_le after)
    omega
  rintro (newline | ⟨isReturn, last⟩)
  · exact plain after before newline
  · rcases Nat.lt_or_eq_of_le (Nat.succ_le_of_lt before) with further | ends
    · have inside := reads.lineEnd_le_size start
      rcases last with newline | ended
      · exact plain (Nat.le_succ_of_le after) further newline
      · omega
    · have other := reads.of_return_before_lineEnd member (by omega) (by rw [← ends]; exact isReturn)
      rw [← ends] at other
      exact last.elim other.1 other.2

theorem lt_lineEnd_of_not_breaksAt {index : Nat} (inside : index < source.size)
    (other : ¬ source.BreaksAt index) : index < source.lineEnd index := by
  obtain ⟨earlier, start, later, onLine⟩ := reads.exists_onLine index
  obtain ⟨stop, -, stops, ends⟩ := onLine.exists_stop reads
  have next : source.masked[stop]? = some 10 ∨ stop = source.size := by
    rcases stops with ⟨-, newline⟩ | ⟨-, ended⟩
    · exact .inl newline
    · exact .inr ended
  have before : index < stop := by
    rcases stops with ⟨head, newline⟩ | ⟨-, rfl⟩
    · have upper := onLine.upper _ (List.mem_of_mem_head? head)
      have apart : index ≠ stop := by
        rintro rfl
        exact other (.inl newline)
      omega
    · exact inside
  rcases ends with eq | ⟨eq, -, isReturn⟩
  · omega
  · have apart : index ≠ source.lineEnd index := by
      intro same
      refine other (.inr ⟨by rw [same]; exact isReturn, ?_⟩)
      rw [same, eq]
      exact next
    omega

theorem divided : source.Divided where
  bounded line := by
    rw [← Option.isSome_iff_exists, bounds?, Option.isSome_map, lineCount, isSome_getElem?]
  inside line bounds found := by
    obtain ⟨-, member, ends⟩ := reads.exists_of_bounds? found
    have le := reads.lineStart_le_lineEnd bounds.1
    rw [reads.lineStart_of_mem member] at le
    rw [ends]
    exact ⟨le, reads.lineEnd_le_size _⟩
  apart line later bounds others before found further := by
    obtain ⟨here, -, ends⟩ := reads.exists_of_bounds? found
    obtain ⟨there, member, -⟩ := reads.exists_of_bounds? further
    rw [ends]
    exact reads.lineEnd_lt member (reads.lt_of_getElem? before here there)
  encloses index inside := by
    constructor
    · rintro ⟨line, bounds, found, after, before⟩
      obtain ⟨-, member, ends⟩ := reads.exists_of_bounds? found
      exact reads.not_breaksAt member after (by rwa [← ends])
    · intro other
      have before := reads.lt_lineEnd_of_not_breaksAt inside other
      have after := reads.lineStart_le index
      have same := (reads.same_line (Nat.le_refl _) (reads.lineStart_le_lineEnd index)).2.2
      refine ⟨source.lineOf index, (source.lineStart index, source.lineEnd (source.lineStart index)),
        ?_, after, by rwa [same]⟩
      rw [reads.bounds?_eq, reads.getElem?_lineOf, Option.map_some]
  text line := by
    rw [lineText?, if_neg (by simp), Nat.add_sub_cancel, bounds?, Option.map_map]
    rfl

/-! ## Positions -/

theorem position_precedes {index later : Nat} (before : index < later) :
    (source.position index).Precedes (source.position later) := by
  have lines := source.lineOf_mono (Nat.le_of_lt before)
  rcases Nat.lt_or_eq_of_le lines with further | same
  · exact .inl (Nat.succ_lt_succ further)
  · have starts : source.lineStart index = source.lineStart later := by
      rw [lineStart, lineStart, same]
    have le := reads.lineStart_le index
    refine .inr ⟨congrArg (· + 1) same, ?_⟩
    show index - source.lineStart index + 1 < later - source.lineStart later + 1
    omega

end Reads

/-- The line of an offset is the only one that holds it; the line and the column of an offset, both
counted from one, lead back to it; and a later offset has a later position.  The masked text is
divided by the bounds of its lines, and so is the text itself. -/
theorem lines_of_ofText (version : Version) (path : String) (text : List Char) :
    let source := ofText version path text
    (∀ line index, source.LineHolds line index ↔ line = source.lineOf index) ∧
      (∀ index, 1 ≤ (source.position index).line ∧ 1 ≤ (source.position index).column ∧
        ∃ start, source.lineStarts[(source.position index).line - 1]? = some start ∧
          index = start + (source.position index).column - 1) ∧
      (∀ index later, index < later →
        (source.position index).Precedes (source.position later)) ∧
      source.Divided ∧ source.unmasked.Divided := by
  have reads := reads_ofText version path text
  refine ⟨reads.lineHolds_iff, fun index => ?_, fun index later => reads.position_precedes,
    reads.divided, reads.unmasked.divided⟩
  have le := reads.lineStart_le index
  refine ⟨Nat.succ_pos _, Nat.succ_pos _, _, reads.getElem?_lineOf index, ?_⟩
  show index = _ + (index - (ofText version path text).lineStart index + 1) - 1
  omega

/-- A carriage return that is masked with a comment is enclosed by the bounds of its masked line. -/
example :
    (ofText .v2 "a.ahk" ";b\r\n\r".toList).bounds? 0 = some (0, 3) ∧
      (ofText .v2 "a.ahk" ";b\r\n\r".toList).unmasked.bounds? 0 = some (0, 2) := by
  decide +kernel

end Source
end DebugBridge
