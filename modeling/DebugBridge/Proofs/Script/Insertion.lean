import DebugBridge.Proofs.Script.Comment
import DebugBridge.Proofs.Script.Extent

/-!
# Lines put into a file

Lines that masking turns into blanks are put in at the start of a line.  Every place of the file moves
with its line, and what the scanner reads off a place, its byte, its line, where that line starts and
ends and how far it is indented, moves along.
-/

namespace DebugBridge
namespace Source

open Text Mask

/-- A file and the same file with blank lines put in at the start of a line. -/
structure Insertion (source shifted : Source) where
  before : List Char
  inserted : List Char
  after : List Char
  front : List Char
  blanks : List Char
  back : List Char
  path_eq : shifted.path = source.path
  reads : source.Reads (before ++ after) (front ++ back)
  reads' : shifted.Reads (before ++ (inserted ++ after)) (front ++ (blanks ++ back))
  front_masks : Masks before front
  blanks_masks : Masks inserted blanks
  begins : before = [] ∨ before.getLast? = some '\n'
  ends : inserted.getLast? = some '\n'
  blank : ∀ c ∈ blanks, separates c

/-! ## Starts of lines in parts of a text -/

theorem breaksFrom_append (index : Nat) (bytes rest : List UInt8) :
    breaksFrom index (bytes ++ rest) =
      breaksFrom index bytes ++ breaksFrom (index + bytes.length) rest := by
  induction bytes generalizing index with
  | nil => rfl
  | cons b bytes ih =>
      rw [List.cons_append, breaksFrom, breaksFrom, ih, List.length_cons, Nat.add_assoc,
        Nat.add_comm 1]
      split <;> rfl

theorem breaksFrom_add (index count : Nat) (bytes : List UInt8) :
    breaksFrom (index + count) bytes = (breaksFrom index bytes).map (· + count) := by
  induction bytes generalizing index with
  | nil => rfl
  | cons b bytes ih =>
      rw [breaksFrom, breaksFrom, Nat.add_right_comm, ih]
      split <;> rfl

theorem length_breaksFrom (index : Nat) (text : List Char) :
    (breaksFrom index (utf8 text)).length = text.count '\n' := by
  induction text generalizing index with
  | nil => rfl
  | cons c text ih =>
      have head : (breaksFrom index (String.utf8EncodeChar c)).length = if c == '\n' then 1 else 0 := by
        split
        next newline => rw [beq_iff_eq.1 newline]; rfl
        next other =>
          rw [List.length_eq_zero_iff, List.eq_nil_iff_forall_not_mem]
          intro start member
          obtain ⟨place, byte, -⟩ := mem_breaksFrom.1 member
          have code := toNat_of_mem_utf8EncodeChar (List.mem_of_getElem? byte) (by decide)
          exact other (beq_iff_eq.2 (Char.ext (UInt32.toNat_inj.1 code)))
      rw [utf8_cons, breaksFrom_append, List.length_append, ih, head, List.count_cons, Nat.add_comm]

/-- The starts of the lines of whole lines end with where the next one starts. -/
theorem breaksFrom_lines (index : Nat) {text : List Char} (lines : text.getLast? = some '\n') :
    ∃ inner, breaksFrom index (utf8 text) = inner ++ [index + byteLength text] := by
  rcases List.eq_nil_or_concat' text with rfl | ⟨text, c, rfl⟩
  · cases lines
  · obtain rfl : c = '\n' := by simpa using lines
    refine ⟨breaksFrom index (utf8 text), ?_⟩
    rw [utf8_append, breaksFrom_append, length_utf8, byteLength_append]
    rfl

theorem byte_of_separates {blanks : List Char} (blank : ∀ c ∈ blanks, separates c) :
    ∀ b ∈ utf8 blanks, b = 32 ∨ b = 9 ∨ b = 13 ∨ b = 10 := by
  induction blanks with
  | nil => exact List.forall_mem_nil _
  | cons c blanks ih =>
      rw [List.forall_mem_cons] at blank
      rw [utf8_cons]
      refine List.forall_mem_append.2 ⟨?_, ih blank.2⟩
      have kind := blank.1
      simp only [separates, Bool.or_eq_true, beq_iff_eq] at kind
      rcases kind with ((rfl | rfl) | rfl) | rfl
      · exact List.forall_mem_singleton.2 (.inl rfl)
      · exact List.forall_mem_singleton.2 (.inr (.inl rfl))
      · exact List.forall_mem_singleton.2 (.inr (.inr (.inl rfl)))
      · exact List.forall_mem_singleton.2 (.inr (.inr (.inr rfl)))

namespace Insertion

variable {source shifted : Source} (ins : source.Insertion shifted)

/-- Where the lines are put in. -/
def place : Nat := byteLength ins.before

/-- Number of bytes put in. -/
def count : Nat := byteLength ins.inserted

/-- Number of lines put in. -/
def lines : Nat := ins.inserted.count '\n'

/-- Number of lines before the insertion. -/
def first : Nat := source.lineOf ins.place

/-- Where an offset goes. -/
def move (index : Nat) : Nat := if index < ins.place then index else index + ins.count

/-- Where a line, counted from zero, goes. -/
def shift (line : Nat) : Nat := if line < source.lineOf ins.place then line else line + ins.lines

/-- Where the lines start: before the insertion, inside what is put in, and after it. -/
structure Tables (earlier inner later : List Nat) : Prop where
  starts : source.lineStarts = (earlier ++ ins.place :: later).toArray
  starts' : shifted.lineStarts = (earlier ++ ((ins.place :: inner) ++
    (ins.place :: later).map (· + ins.count))).toArray
  length_eq : inner.length + 1 = ins.lines
  inside : ∀ start ∈ inner, ins.place ≤ start

theorem exists_tables : ∃ earlier inner later, ins.Tables earlier inner later := by
  obtain ⟨earlier, first⟩ : ∃ earlier, 0 :: breaksFrom 0 (utf8 ins.before) =
      earlier ++ [ins.place] := by
    rcases ins.begins with empty | lines
    · exact ⟨[], by rw [place, empty]; rfl⟩
    · obtain ⟨inner, eq⟩ := breaksFrom_lines 0 lines
      exact ⟨0 :: inner, by rw [eq, Nat.zero_add]; rfl⟩
  obtain ⟨inner, second⟩ := breaksFrom_lines ins.place ins.ends
  refine ⟨earlier, inner, breaksFrom ins.place (utf8 ins.after), ?_, ?_, ?_, ?_⟩
  · rw [ins.reads.lineStarts_eq, utf8_append, breaksFrom_append, length_utf8, Nat.zero_add,
      ← List.cons_append, first, List.append_assoc]
    rfl
  · rw [ins.reads'.lineStarts_eq, utf8_append, utf8_append, breaksFrom_append, breaksFrom_append,
      length_utf8, length_utf8, Nat.zero_add, ← List.cons_append, first,
      show byteLength ins.before = ins.place from rfl, second,
      show byteLength ins.inserted = ins.count from rfl, breaksFrom_add]
    simp
  · have length := length_breaksFrom ins.place ins.inserted
    rw [second, List.length_append, List.length_singleton] at length
    exact length
  · intro start member
    have inside : start ∈ breaksFrom ins.place (utf8 ins.inserted) := by
      rw [second]
      exact List.mem_append_left _ member
    obtain ⟨offset, -, rfl⟩ := mem_breaksFrom.1 inside
    omega

namespace Tables

variable {ins} {earlier inner later : List Nat} (tables : ins.Tables earlier inner later)

include tables

/-- The line at which the lines are put in. -/
theorem onLine_place : source.OnLine earlier ins.place later ins.place := by
  have sorted := ins.reads.pairwise_lineStarts
  rw [tables.starts, List.toList_toArray] at sorted
  exact ⟨tables.starts, Nat.le_refl _, (List.pairwise_cons.1 (List.pairwise_append.1 sorted).2.1).1⟩

/-- The first of the lines that are put in. -/
theorem onLine_place' : shifted.OnLine earlier ins.place
    (inner ++ (ins.place :: later).map (· + ins.count)) ins.place := by
  have sorted := ins.reads'.pairwise_lineStarts
  rw [tables.starts', List.toList_toArray] at sorted
  exact ⟨tables.starts', Nat.le_refl _, (List.pairwise_cons.1 (List.pairwise_append.1 sorted).2.1).1⟩

theorem lt_place {start : Nat} (member : start ∈ earlier) : start < ins.place := by
  have sorted := ins.reads.pairwise_lineStarts
  rw [tables.starts, List.toList_toArray] at sorted
  exact (List.pairwise_append.1 sorted).2.2 start member ins.place List.mem_cons_self

theorem place_le {start : Nat} (member : start ∈ ins.place :: later) : ins.place ≤ start := by
  rcases List.mem_cons.1 member with rfl | member
  · exact Nat.le_refl _
  · exact Nat.le_of_lt (tables.onLine_place.upper start member)

theorem lt_next {start : Nat} (member : start ∈ ins.place :: inner) : start < ins.place + ins.count := by
  have sorted := ins.reads'.pairwise_lineStarts
  rw [tables.starts', List.toList_toArray] at sorted
  exact (List.pairwise_append.1 (List.pairwise_append.1 sorted).2.1).2.2 start member _ (by simp)

end Tables

/-! ## Moved offsets -/

section Move

variable {index other : Nat}

theorem move_of_lt (lt : index < ins.place) : ins.move index = index := if_pos lt

theorem move_of_le (le : ins.place ≤ index) : ins.move index = index + ins.count :=
  if_neg (Nat.not_lt.2 le)

theorem move_lt_move : ins.move index < ins.move other ↔ index < other := by
  unfold move
  split <;> split <;> omega

theorem move_le_move : ins.move index ≤ ins.move other ↔ index ≤ other := by
  rw [← Nat.not_lt, ins.move_lt_move, Nat.not_lt]

theorem move_inj : ins.move index = ins.move other ↔ index = other := by
  rw [Nat.eq_iff_le_and_ge, ins.move_le_move, ins.move_le_move, ← Nat.eq_iff_le_and_ge]

theorem move_min (index other : Nat) :
    ins.move (min index other) = min (ins.move index) (ins.move other) := by
  unfold move
  split <;> split <;> split <;> omega

theorem move_max (index other : Nat) :
    ins.move (max index other) = max (ins.move index) (ins.move other) := by
  unfold move
  split <;> split <;> split <;> omega

/-- Offsets on the same side of the insertion keep their distance. -/
theorem move_add {distance : Nat} (same : index < ins.place → index + distance < ins.place) :
    ins.move (index + distance) = ins.move index + distance := by
  unfold move
  split <;> split <;> omega

theorem move_sub_one (other : index ≠ ins.place) (positive : 0 < index) :
    ins.move (index - 1) = ins.move index - 1 := by
  unfold move
  split <;> split <;> omega

end Move

/-! ## Moved bytes -/

section Bytes

variable {first middle last : List Char} (size : byteLength first = ins.place)
  (length : byteLength middle = ins.count)

include size length

theorem getElem?_utf8_move (index : Nat) :
    (utf8 (first ++ (middle ++ last)))[ins.move index]? = (utf8 (first ++ last))[index]? := by
  rw [utf8_append, utf8_append, utf8_append]
  rcases Nat.lt_or_ge index ins.place with lt | le
  · rw [ins.move_of_lt lt, List.getElem?_append_left (by rwa [length_utf8, size]),
      List.getElem?_append_left (by rwa [length_utf8, size])]
  · rw [ins.move_of_le le, List.getElem?_append_right (by rw [length_utf8]; omega),
      List.getElem?_append_right (by rw [length_utf8, length_utf8]; omega),
      List.getElem?_append_right (by rw [length_utf8]; omega), length_utf8, length_utf8, size, length]
    congr 1
    omega

/-- The bytes between two offsets on the same side of the insertion. -/
theorem extract_utf8_move {start stop : Nat} (apart : stop < ins.place ∨ ins.place ≤ start) :
    (utf8 (first ++ (middle ++ last))).toArray.extract (ins.move start) (ins.move stop) =
      (utf8 (first ++ last)).toArray.extract start stop := by
  refine Array.ext_getElem? fun index => ?_
  rw [Array.getElem?_extract, Array.getElem?_extract, List.size_toArray, List.size_toArray,
    length_utf8, length_utf8, byteLength_append, byteLength_append, byteLength_append, size, length]
  have same : index < min (ins.move stop) (ins.place + (ins.count + byteLength last)) -
      ins.move start ↔ index < min stop (ins.place + byteLength last) - start := by
    unfold move
    split <;> split <;> omega
  by_cases inside : index < min stop (ins.place + byteLength last) - start
  · rw [if_pos inside, if_pos (same.2 inside), ← ins.move_add (by omega), List.getElem?_toArray,
      List.getElem?_toArray, ins.getElem?_utf8_move size length]
  · rw [if_neg inside, if_neg (mt same.1 inside)]

/-- A place between characters stays one. -/
theorem isBoundary_utf8_move (index : Nat) :
    isBoundary (utf8 (first ++ (middle ++ last))).toArray (ins.move index) =
      isBoundary (utf8 (first ++ last)).toArray index := by
  rw [isBoundary, isBoundary, List.getElem?_toArray, List.getElem?_toArray,
    ins.getElem?_utf8_move size length]
  split
  · rfl
  · rw [List.size_toArray, List.size_toArray, length_utf8, length_utf8, byteLength_append,
      byteLength_append, byteLength_append, size, length, Bool.eq_iff_iff, beq_iff_eq, beq_iff_eq]
    unfold move
    split <;> omega

end Bytes

theorem front_length : byteLength ins.front = ins.place := ins.front_masks.byteLength_eq

theorem blanks_length : byteLength ins.blanks = ins.count := ins.blanks_masks.byteLength_eq

theorem masked_move (index : Nat) : shifted.masked[ins.move index]? = source.masked[index]? := by
  rw [ins.reads.masked_eq, ins.reads'.masked_eq, List.getElem?_toArray, List.getElem?_toArray]
  exact ins.getElem?_utf8_move ins.front_length ins.blanks_length index

theorem text_move (index : Nat) : shifted.text[ins.move index]? = source.text[index]? := by
  rw [ins.reads.text_eq, ins.reads'.text_eq, List.getElem?_toArray, List.getElem?_toArray]
  exact ins.getElem?_utf8_move rfl rfl index

theorem byteAt_move (index : Nat) : shifted.byteAt (ins.move index) = source.byteAt index := by
  rw [byteAt, byteAt, Array.getD_eq_getD_getElem?, Array.getD_eq_getD_getElem?, ins.masked_move]

theorem isBoundary_masked_move (index : Nat) :
    isBoundary shifted.masked (ins.move index) = isBoundary source.masked index := by
  rw [ins.reads.masked_eq, ins.reads'.masked_eq]
  exact ins.isBoundary_utf8_move ins.front_length ins.blanks_length index

theorem isBoundary_text_move (index : Nat) :
    isBoundary shifted.text (ins.move index) = isBoundary source.text index := by
  rw [ins.reads.text_eq, ins.reads'.text_eq]
  exact ins.isBoundary_utf8_move rfl rfl index

/-- The characters between two offsets on the same side of the insertion. -/
theorem charsOf_masked_move {start stop : Nat} (apart : stop < ins.place ∨ ins.place ≤ start) :
    charsOf shifted.masked (ins.move start) (ins.move stop) = charsOf source.masked start stop := by
  rw [charsOf, charsOf, ins.reads.masked_eq, ins.reads'.masked_eq,
    ins.extract_utf8_move ins.front_length ins.blanks_length apart]

theorem charsOf_text_move {start stop : Nat} (apart : stop < ins.place ∨ ins.place ≤ start) :
    charsOf shifted.text (ins.move start) (ins.move stop) = charsOf source.text start stop := by
  rw [charsOf, charsOf, ins.reads.text_eq, ins.reads'.text_eq, ins.extract_utf8_move rfl rfl apart]

theorem place_le_size : ins.place ≤ source.size := by
  rw [ins.reads.size_eq, byteLength_append, ins.front_length]
  exact Nat.le_add_right _ _

theorem size_move : shifted.size = ins.move source.size := by
  rw [ins.move_of_le ins.place_le_size, ins.reads.size_eq, ins.reads'.size_eq, byteLength_append,
    byteLength_append, byteLength_append, ins.blanks_length, Nat.add_assoc, Nat.add_comm ins.count]

/-- What is put in consists of blanks. -/
theorem masked_inserted {index : Nat} (after : ins.place ≤ index)
    (before : index < ins.place + ins.count) :
    ∃ b, shifted.masked[index]? = some b ∧ (b = 32 ∨ b = 9 ∨ b = 13 ∨ b = 10) := by
  have inside : index - ins.place < (utf8 ins.blanks).length := by
    rw [length_utf8, ins.blanks_length]
    omega
  refine ⟨(utf8 ins.blanks)[index - ins.place], ?_, ?_⟩
  · rw [ins.reads'.masked_eq, List.getElem?_toArray, utf8_append, utf8_append,
      List.getElem?_append_right (by rwa [length_utf8, ins.front_length]), length_utf8,
      ins.front_length, List.getElem?_append_left inside, List.getElem?_eq_getElem inside]
  · refine byte_of_separates ins.blank _ (List.getElem_mem inside)

/-- The place of the insertion follows a line break. -/
theorem masked_before {index : Nat} (last : index + 1 = ins.place) :
    source.masked[index]? = some 10 := by
  rw [← ins.reads.newline_iff, ins.reads.text_eq, List.getElem?_toArray]
  rcases List.eq_nil_or_concat' ins.before with empty | ⟨text, c, split⟩
  · rw [place, empty] at last
    cases last
  · obtain rfl : c = '\n' := by simpa [split] using ins.begins
    rw [place, split, byteLength_append] at last
    obtain rfl : index = byteLength text := Nat.succ.inj last
    rw [split, List.append_assoc]
    exact getElem?_utf8_ascii (by decide)

/-! ## Moved lines -/

/-- A line and the line that it becomes.  Before the insertion the next line stays where it is, though
it may then be the first of those that are put in; from there on it moves along. -/
structure LineMoved (index : Nat) (earlier : List Nat) (start : Nat)
    (later earlier' later' : List Nat) : Prop where
  onLine : source.OnLine earlier start later index
  onLine' : shifted.OnLine earlier' (ins.move start) later' (ins.move index)
  number_eq : earlier'.length = ins.shift earlier.length
  next : index < ins.place ∧ start < ins.place ∧
      (∃ next ≤ ins.place, later.head? = some next ∧ later'.head? = some next) ∨
    ins.place ≤ index ∧ ins.place ≤ start ∧ later'.head? = later.head?.map (· + ins.count)

section LineMoved

variable {ins} {index start : Nat} {front inner back earlier middle later : List Nat}
  (tables : ins.Tables front inner back)

include tables

theorem lineMoved_before (split : front = earlier ++ start :: middle)
    (onLine : source.OnLine earlier start (middle ++ ins.place :: back) index) :
    ins.LineMoved index earlier start (middle ++ ins.place :: back) earlier
      (middle ++ ((ins.place :: inner) ++ (ins.place :: back).map (· + ins.count))) := by
  have lower := onLine.lower
  have before : index < ins.place := onLine.upper ins.place (by simp)
  have number := tables.onLine_place.lineOf_eq ins.reads
  refine ⟨onLine, ⟨?_, ins.move_le_move.2 lower, ?_⟩, ?_, .inl ⟨before, by omega, ?_⟩⟩
  · rw [tables.starts', split, ins.move_of_lt (by omega)]
    simp
  · rw [ins.move_of_lt before]
    intro next member
    simp only [List.mem_append, List.mem_cons, List.mem_map] at member
    rcases member with early | (rfl | place) | ⟨other, place, rfl⟩
    · exact onLine.upper next (List.mem_append_left _ early)
    · exact before
    · exact Nat.lt_of_lt_of_le before (tables.inside next place)
    · have after := tables.place_le (List.mem_cons.2 place)
      omega
  · rw [shift, number, split, if_pos]
    simp
  · cases middle with
    | nil => exact ⟨ins.place, Nat.le_refl _, rfl, rfl⟩
    | cons next middle =>
        have early : next < ins.place := tables.lt_place (by simp [split])
        exact ⟨next, Nat.le_of_lt early, rfl, rfl⟩

/-- A line from the insertion on has its lines before it lengthened by those that are put in. -/
theorem lineMoved_after (split : earlier = front ++ middle)
    (rest : ins.place :: back = middle ++ start :: later)
    (onLine : source.OnLine earlier start later index) :
    ins.LineMoved index earlier start later
      (front ++ (ins.place :: inner) ++ middle.map (· + ins.count)) (later.map (· + ins.count)) := by
  have lower := onLine.lower
  have le : ins.place ≤ start := tables.place_le (by simp [rest])
  have number := tables.onLine_place.lineOf_eq ins.reads
  have length := tables.length_eq
  refine ⟨onLine, ⟨?_, ins.move_le_move.2 lower, ?_⟩, ?_, .inr ⟨by omega, le, by simp⟩⟩
  · rw [tables.starts', rest, ins.move_of_le le]
    simp
  · intro next member
    obtain ⟨next, place, rfl⟩ := List.mem_map.1 member
    have upper := onLine.upper next place
    rw [ins.move_of_le (by omega)]
    omega
  · rw [shift, number, split, if_neg (by rw [List.length_append]; omega)]
    simp only [List.length_append, List.length_cons, List.length_map]
    omega

end LineMoved

theorem onLine_move (index : Nat) : ∃ earlier start later earlier' later',
    ins.LineMoved index earlier start later earlier' later' := by
  obtain ⟨earlier, start, later, onLine⟩ := ins.reads.exists_onLine index
  obtain ⟨front, inner, back, tables⟩ := ins.exists_tables
  have split : earlier ++ start :: later = front ++ ins.place :: back :=
    congrArg Array.toList (onLine.starts.symm.trans tables.starts)
  rcases List.append_eq_append_iff.1 split with ⟨middle, eq, rest⟩ | ⟨middle, eq, rest⟩
  · cases middle with
    | nil =>
        have split : earlier = front ++ [] := by simpa using eq.symm
        exact ⟨_, _, _, _, _, lineMoved_after tables split (by simpa using rest.symm) onLine⟩
    | cons first middle =>
        rw [List.cons_append] at rest
        obtain ⟨rfl, rfl⟩ := List.cons.inj rest
        exact ⟨_, _, _, _, _, lineMoved_before tables eq onLine⟩
  · exact ⟨_, _, _, _, _, lineMoved_after tables eq rest onLine⟩

theorem lineOf_move (index : Nat) : shifted.lineOf (ins.move index) = ins.shift (source.lineOf index) := by
  obtain ⟨earlier, start, later, earlier', later', onLine, onLine', length, -⟩ := ins.onLine_move index
  rw [onLine.lineOf_eq ins.reads, onLine'.lineOf_eq ins.reads', length]

theorem lineStart_move (index : Nat) :
    shifted.lineStart (ins.move index) = ins.move (source.lineStart index) := by
  obtain ⟨earlier, start, later, earlier', later', onLine, onLine', -⟩ := ins.onLine_move index
  rw [onLine.lineStart_eq ins.reads, onLine'.lineStart_eq ins.reads']

/-- The next line moves along, but for the one at which lines are put in. -/
theorem nextLineStart_move (index : Nat) :
    shifted.nextLineStart (ins.move index) = ins.move (source.nextLineStart index) ∨
      source.nextLineStart index = ins.place ∧
        shifted.nextLineStart (ins.move index) = ins.place := by
  obtain ⟨earlier, start, later, earlier', later', onLine, onLine', -, sides⟩ := ins.onLine_move index
  rw [onLine.nextLineStart_eq ins.reads, onLine'.nextLineStart_eq ins.reads']
  rcases sides with ⟨-, -, next, le, head, head'⟩ | ⟨-, le, head⟩
  · rw [head, head', Option.getD_some]
    rcases Nat.eq_or_lt_of_le le with rfl | lt
    · exact .inr ⟨rfl, rfl⟩
    · exact .inl (ins.move_of_lt lt).symm
  · rw [head]
    cases later with
    | nil => exact .inl ins.size_move
    | cons next later =>
        have after := onLine.lt_of_mem_later ins.reads List.mem_cons_self
        exact .inl (ins.move_of_le (by omega)).symm

theorem lineEnd_move (index : Nat) :
    shifted.lineEnd (ins.move index) = ins.move (source.lineEnd index) := by
  obtain ⟨earlier, start, later, earlier', later', onLine, onLine', -, sides⟩ := ins.onLine_move index
  have stopped {stop : Nat} (lower : start ≤ stop) (same : start < ins.place → stop < ins.place) :
      (if ins.move start < ins.move stop && shifted.byteAt (ins.move stop - 1) == 13 then
          ins.move stop - 1 else ins.move stop) =
        ins.move (if start < stop && source.byteAt (stop - 1) == 13 then stop - 1 else stop) := by
    rcases Nat.eq_or_lt_of_le lower with rfl | lt
    · simp
    · have pred : ins.move (stop - 1) = ins.move stop - 1 := ins.move_sub_one (by omega) (by omega)
      rw [← pred, ins.byteAt_move, decide_eq_true (ins.move_lt_move.2 lt), decide_eq_true lt]
      split <;> rfl
  rw [lineEnd, lineEnd, onLine.lineStart_eq ins.reads, onLine.find?_eq ins.reads,
    onLine'.lineStart_eq ins.reads', onLine'.find?_eq ins.reads']
  rcases sides with ⟨-, before, next, le, head, head'⟩ | ⟨-, le, head⟩
  · have after := onLine.lt_of_mem_later ins.reads (List.mem_of_mem_head? head)
    have moved := stopped (Nat.le_sub_one_of_lt after) (by omega)
    rw [ins.move_of_lt (show next - 1 < ins.place by omega)] at moved
    rw [head, head']
    exact moved
  · rw [head]
    cases later with
    | nil =>
        have moved := stopped (onLine.start_le_size ins.reads) (by omega)
        rw [← ins.size_move] at moved
        exact moved
    | cons next later =>
        have after := onLine.lt_of_mem_later ins.reads List.mem_cons_self
        have moved := stopped (Nat.le_sub_one_of_lt after) (by omega)
        rw [ins.move_of_le (show ins.place ≤ next - 1 by omega),
          show next - 1 + ins.count = next + ins.count - 1 by omega] at moved
        exact moved

/-- The insertion is the start of a line. -/
theorem place_mem : ins.place ∈ source.lineStarts := by
  obtain ⟨front, inner, back, tables⟩ := ins.exists_tables
  rw [tables.starts]
  simp

/-- A line ends on the same side of the insertion as it starts. -/
theorem lineEnd_lt {index : Nat} (before : index < ins.place) : source.lineEnd index < ins.place :=
  ins.reads.lineEnd_lt ins.place_mem before

theorem place_le_lineStart {index : Nat} (after : ins.place ≤ index) :
    ins.place ≤ source.lineStart index := ins.reads.le_lineStart ins.place_mem after

theorem maskedLine_move (index : Nat) :
    shifted.maskedLine (ins.move index) = source.maskedLine index := by
  rw [maskedLine, maskedLine, ins.lineStart_move, ins.lineEnd_move]
  refine ins.charsOf_masked_move ?_
  rcases Nat.lt_or_ge index ins.place with before | after
  · exact .inl (ins.lineEnd_lt before)
  · exact .inr (ins.place_le_lineStart after)

theorem rawLine_move (index : Nat) : shifted.rawLine (ins.move index) = source.rawLine index := by
  rw [rawLine, rawLine, ins.lineStart_move, ins.lineEnd_move]
  refine ins.charsOf_text_move ?_
  rcases Nat.lt_or_ge index ins.place with before | after
  · exact .inl (ins.lineEnd_lt before)
  · exact .inr (ins.place_le_lineStart after)

theorem indent_move (index : Nat) : shifted.indent (ins.move index) = source.indent index := by
  rw [indent, indent, ins.maskedLine_move]

/-- An offset on a line keeps its distance from the start of the line. -/
theorem move_lineStart_add {index distance : Nat}
    (inLine : source.lineStart index + distance ≤ source.lineEnd index) :
    ins.move (source.lineStart index + distance) = ins.move (source.lineStart index) + distance := by
  refine ins.move_add fun before => ?_
  have early : index < ins.place := by
    refine Nat.lt_of_not_le fun after => ?_
    have := ins.place_le_lineStart after
    omega
  have := ins.lineEnd_lt early
  omega

theorem leadsLine_move (depth index : Nat) :
    shifted.leadsLine depth (ins.move index) = source.leadsLine depth index := by
  rw [leadsLine, leadsLine, ins.indent_move, ins.lineStart_move,
    ← ins.move_lineStart_add (ins.reads.between_indent index).2]
  rw [Bool.eq_iff_iff, Bool.and_eq_true, Bool.and_eq_true, beq_iff_eq, beq_iff_eq, ins.move_inj]

/-! ## The lines that are put in -/

theorem move_mem {start : Nat} (member : start ∈ source.lineStarts) :
    ins.move start ∈ shifted.lineStarts := by
  have moved := ins.lineStart_move start
  rw [ins.reads.lineStart_of_mem member] at moved
  rw [← moved]
  exact ins.reads'.lineStart_mem _

theorem next_mem : ins.place + ins.count ∈ shifted.lineStarts := by
  rw [← ins.move_of_le (Nat.le_refl _)]
  exact ins.move_mem ins.place_mem

theorem place_mem' : ins.place ∈ shifted.lineStarts := by
  obtain ⟨front, inner, back, tables⟩ := ins.exists_tables
  rw [tables.starts']
  simp

/-- What is put in on a line consists of blanks. -/
theorem maskedLine_inserted {index : Nat} (after : ins.place ≤ index)
    (before : index < ins.place + ins.count) : ∀ c ∈ shifted.maskedLine index, separates c := by
  obtain ⟨first, last, hidden, start, stop⟩ := ins.reads'.exists_maskedLine index
  have ended := ins.reads'.lineEnd_lt ins.next_mem before
  have begun := ins.reads'.le_lineStart ins.place_mem' after
  rw [List.append_assoc] at hidden
  obtain ⟨more, rfl, rest⟩ := exists_between hidden (by rw [ins.front_length]; omega)
  rw [← List.append_assoc] at rest
  rw [byteLength_append, ins.front_length] at start stop
  obtain ⟨other, whole, -⟩ := exists_between rest.symm
    (by rw [byteLength_append, ins.blanks_length]; omega)
  intro c member
  refine ins.blank c ?_
  rw [whole]
  simp [member]

theorem lineOf_place : shifted.lineOf ins.place = ins.first := by
  obtain ⟨earlier, inner, later, tables⟩ := ins.exists_tables
  rw [first, tables.onLine_place.lineOf_eq ins.reads, tables.onLine_place'.lineOf_eq ins.reads']

/-- What is put in is on the new lines. -/
theorem lineOf_inserted {index : Nat} (after : ins.place ≤ index)
    (before : index < ins.place + ins.count) :
    ins.first ≤ shifted.lineOf index ∧ shifted.lineOf index < ins.first + ins.lines := by
  have upper := ins.reads'.lineOf_lt ins.next_mem before
  rw [← ins.move_of_le (Nat.le_refl _), ins.lineOf_move, shift, if_neg (Nat.lt_irrefl _),
    ← first] at upper
  rw [← ins.lineOf_place]
  exact ⟨shifted.lineOf_mono after, by rwa [ins.lineOf_place]⟩

theorem lineCount_move : shifted.lineCount = source.lineCount + ins.lines := by
  obtain ⟨earlier, inner, later, tables⟩ := ins.exists_tables
  have length := tables.length_eq
  simp only [lineCount, tables.starts, tables.starts', List.size_toArray, List.length_append, List.length_cons,
    List.length_map]
  omega

theorem first_lt_lineCount : ins.first < source.lineCount := by
  obtain ⟨inside, -⟩ := Array.getElem?_eq_some_iff.1 (ins.reads.getElem?_lineOf ins.place)
  exact inside

/-- A line by its new number. -/
theorem getElem?_lineStarts_shift (line : Nat) :
    shifted.lineStarts[ins.shift line]? = (source.lineStarts[line]?).map ins.move := by
  cases here : source.lineStarts[line]? with
  | none =>
      rw [Array.getElem?_eq_none_iff] at here
      have count := ins.lineCount_move
      have inFile := ins.first_lt_lineCount
      rw [Option.map_none, Array.getElem?_eq_none_iff]
      rw [lineCount, lineCount] at count
      rw [first, lineCount] at inFile
      rw [count, shift]
      split <;> omega
  | some start =>
      have member : start ∈ source.lineStarts := (ins.reads.onLine_of_getElem? here).mem_start
      rw [← ins.reads.lineOf_of_getElem? here, ← ins.lineOf_move, ins.reads'.getElem?_lineOf,
        ins.lineStart_move, ins.reads.lineStart_of_mem member, Option.map_some]

/-- A new line is one of those that are put in. -/
theorem mem_inserted {line start : Nat} (here : shifted.lineStarts[line]? = some start)
    (after : ins.first ≤ line) (before : line < ins.first + ins.lines) :
    ins.place ≤ start ∧ start < ins.place + ins.count := by
  have number := ins.reads'.lineOf_of_getElem? here
  constructor
  · refine Nat.le_of_not_lt fun early => ?_
    have := ins.reads'.lineOf_lt ins.place_mem' early
    rw [number, ins.lineOf_place] at this
    omega
  · refine Nat.lt_of_not_le fun late => ?_
    have last := shifted.lineOf_mono late
    rw [← ins.move_of_le (Nat.le_refl _), ins.lineOf_move, shift, if_neg (Nat.lt_irrefl _), number,
      ← first] at last
    omega

theorem allBlank_inserted {index : Nat} (after : ins.place ≤ index)
    (before : index < ins.place + ins.count) : allBlank (shifted.maskedLine index) = true := by
  rw [allBlank, List.all_eq_true]
  intro c member
  have kind := ins.maskedLine_inserted after before c member
  simp only [separates, Bool.or_eq_true, beq_iff_eq] at kind
  rcases kind with ((rfl | rfl) | rfl) | rfl <;> decide

/-- Offsets that have moved, among them places in what is put in. -/
inductive Spread : List Nat → List Nat → Prop
  | nil : Spread [] []
  | inserted {start : Nat} {starts starts' : List Nat} (after : ins.place ≤ start)
      (before : start < ins.place + ins.count) (rest : Spread starts starts') :
      Spread starts (start :: starts')
  | moved (start : Nat) {starts starts' : List Nat} (rest : Spread starts starts') :
      Spread (start :: starts) (ins.move start :: starts')

section Spread

variable {ins} {starts starts' later later' : List Nat}

theorem Spread.append (front : ins.Spread starts starts') (back : ins.Spread later later') :
    ins.Spread (starts ++ later) (starts' ++ later') := by
  induction front with
  | nil => exact back
  | inserted after before rest ih => exact .inserted after before ih
  | moved start rest ih => exact .moved start ih

theorem spread_map (starts : List Nat) : ins.Spread starts (starts.map ins.move) := by
  induction starts with
  | nil => exact .nil
  | cons start starts ih => exact .moved start ih

theorem spread_inserted (inside : ∀ start ∈ starts', ins.place ≤ start ∧ start < ins.place + ins.count) :
    ins.Spread [] starts' := by
  induction starts' with
  | nil => exact .nil
  | cons start starts' ih =>
      rw [List.forall_mem_cons] at inside
      exact .inserted inside.1.1 inside.1.2 (ih inside.2)

theorem Spread.filter {p p' : Nat → Bool} (spread : ins.Spread starts starts')
    (same : ∀ start ∈ starts, p' (ins.move start) = p start) :
    ins.Spread (starts.filter p) (starts'.filter p') := by
  induction spread with
  | nil => exact .nil
  | inserted after before rest ih =>
      rw [List.filter_cons]
      split
      · exact .inserted after before (ih same)
      · exact ih same
  | moved start rest ih =>
      rw [List.forall_mem_cons] at same
      rw [List.filter_cons, List.filter_cons, same.1]
      split
      · exact .moved start (ih same.2)
      · exact ih same.2

theorem Spread.find? {p p' : Nat → Bool} (spread : ins.Spread starts starts')
    (same : ∀ start ∈ starts, p' (ins.move start) = p start)
    (passed : ∀ start ∈ starts', ins.place ≤ start → start < ins.place + ins.count →
      p' start = false) :
    starts'.find? p' = (starts.find? p).map ins.move := by
  induction spread with
  | nil => rfl
  | inserted after before rest ih =>
      rw [List.forall_mem_cons] at passed
      rw [List.find?_cons, passed.1 after before]
      exact ih same passed.2
  | moved start rest ih =>
      rw [List.forall_mem_cons] at same passed
      rw [List.find?_cons, List.find?_cons, same.1]
      split
      · rfl
      · exact ih same.2 passed.2

end Spread

/-- The lines of the longer file. -/
theorem spread_lineStarts : ins.Spread source.lineStarts.toList shifted.lineStarts.toList := by
  obtain ⟨earlier, inner, later, tables⟩ := ins.exists_tables
  have early : ins.Spread earlier earlier := by
    have stay : earlier.map ins.move = earlier :=
      (List.map_congr_left fun start member =>
        ins.move_of_lt (tables.lt_place member)).trans (List.map_id' _)
    have map : ins.Spread earlier (earlier.map ins.move) := spread_map earlier
    rwa [stay] at map
  have late : ins.Spread (ins.place :: later) ((ins.place :: later).map (· + ins.count)) := by
    have go : (ins.place :: later).map ins.move = (ins.place :: later).map (· + ins.count) :=
      List.map_congr_left fun start member => ins.move_of_le (tables.place_le member)
    rw [← go]
    exact spread_map _
  have new : ins.Spread [] (ins.place :: inner) := by
    refine spread_inserted fun start member => ⟨?_, tables.lt_next member⟩
    rcases List.mem_cons.1 member with rfl | member
    · exact Nat.le_refl _
    · exact tables.inside start member
  rw [tables.starts, tables.starts']
  exact early.append (new.append late)

/-- A search among the lines that passes over those that are put in. -/
theorem find?_move {p p' : Nat → Bool}
    (same : ∀ start ∈ source.lineStarts, p' (ins.move start) = p start)
    (passed : ∀ start ∈ shifted.lineStarts, ins.place ≤ start → start < ins.place + ins.count →
      p' start = false) :
    shifted.lineStarts.find? p' = (source.lineStarts.find? p).map ins.move := by
  rw [← Array.find?_toList, ← Array.find?_toList]
  exact ins.spread_lineStarts.find? (fun start member => same start (Array.mem_toList_iff.1 member))
    fun start member => passed start (Array.mem_toList_iff.1 member)

theorem codeLineAfter?_move (index : Nat) :
    shifted.codeLineAfter? (ins.move index) = (source.codeLineAfter? index).map ins.move := by
  refine ins.find?_move (fun start member => ?_) fun start member after before => ?_
  · rw [ins.maskedLine_move, decide_eq_decide.2 ins.move_lt_move]
  · rw [ins.allBlank_inserted after before, Bool.not_true, Bool.and_false]

end Insertion
end Source
end DebugBridge
