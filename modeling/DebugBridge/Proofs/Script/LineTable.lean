import DebugBridge.Proofs.Script.Masking
import Mathlib.Data.List.TakeWhile

/-!
# The line table of a file

Lines start at the beginning of a file and after its line breaks, and an offset belongs to the last
line that starts at or before it.  The places that the scanner takes from the table, the starts and
ends of lines and the end of an indentation, lie between characters.
-/

namespace DebugBridge
namespace Source

open Text Mask

/-! ## Starts of lines -/

theorem mem_breaksFrom {index start : Nat} {bytes : List UInt8} :
    start ∈ breaksFrom index bytes ↔ ∃ place, bytes[place]? = some 10 ∧ start = index + place + 1 := by
  induction bytes generalizing index with
  | nil => simp [breaksFrom]
  | cons b rest ih =>
      have later : start ∈ breaksFrom (index + 1) rest ↔
          ∃ place, (b :: rest)[place + 1]? = some 10 ∧ start = index + (place + 1) + 1 := by
        rw [ih]
        simp only [List.getElem?_cons_succ, Nat.add_assoc, Nat.add_comm 1]
      have split : (∃ place, (b :: rest)[place]? = some 10 ∧ start = index + place + 1) ↔
          (b = 10 ∧ start = index + 1) ∨ start ∈ breaksFrom (index + 1) rest := by
        rw [later]
        constructor
        · rintro ⟨_ | place, byte, rfl⟩
          · exact .inl ⟨by simpa using byte, rfl⟩
          · exact .inr ⟨place, byte, rfl⟩
        · rintro (⟨rfl, rfl⟩ | ⟨place, byte, rfl⟩)
          · exact ⟨0, rfl, rfl⟩
          · exact ⟨place + 1, byte, rfl⟩
      rw [split, breaksFrom]
      split
      next newline => rw [List.mem_cons, beq_iff_eq.1 newline]; simp
      next other => simp [mt beq_iff_eq.2 other]

theorem pairwise_breaksFrom (index : Nat) (bytes : List UInt8) :
    (breaksFrom index bytes).Pairwise (· < ·) := by
  induction bytes generalizing index with
  | nil => exact .nil
  | cons b rest ih =>
      rw [breaksFrom]
      split
      · refine .cons (fun start member => ?_) (ih _)
        obtain ⟨place, _, rfl⟩ := mem_breaksFrom.1 member
        omega
      · exact ih _

/-- A place in an increasing list that begins at or before it. -/
theorem exists_split_of_pairwise {first index : Nat} {rest : List Nat}
    (sorted : (first :: rest).Pairwise (· < ·)) (begins : first ≤ index) :
    ∃ earlier start later, first :: rest = earlier ++ start :: later ∧ start ≤ index ∧
      ∀ next ∈ later, index < next := by
  induction rest generalizing first with
  | nil => exact ⟨[], first, [], rfl, begins, by simp⟩
  | cons second rest ih =>
      obtain ⟨_, tail⟩ := List.pairwise_cons.1 sorted
      by_cases before : second ≤ index
      · obtain ⟨earlier, start, later, split, lower, upper⟩ := ih tail before
        exact ⟨first :: earlier, start, later, by rw [split]; rfl, lower, upper⟩
      · refine ⟨[], first, second :: rest, rfl, begins, fun next member => ?_⟩
        rcases List.mem_cons.1 member with rfl | later
        · omega
        · have := (List.pairwise_cons.1 tail).1 next later
          omega

theorem lineOf_mono (source : Source) {index later : Nat} (le : index ≤ later) :
    source.lineOf index ≤ source.lineOf later := by
  have further : source.lineStarts.findIdx (fun start => index < start) ≤
      source.lineStarts.findIdx fun start => later < start := by
    have whole : source.lineStarts.toList.toArray = source.lineStarts := Array.toArray_toList
    rw [← whole, List.findIdx_toArray, List.findIdx_toArray]
    refine List.findIdx_le_findIdx fun start _ before => ?_
    rw [decide_eq_true_eq] at before ⊢
    exact Nat.lt_of_le_of_lt le before
  exact Nat.sub_le_sub_right further 1

/-- The line of an offset among all lines: those that start before it and those after it. -/
structure OnLine (source : Source) (earlier : List Nat) (start : Nat) (later : List Nat)
    (index : Nat) : Prop where
  starts : source.lineStarts = (earlier ++ start :: later).toArray
  lower : start ≤ index
  upper : ∀ next ∈ later, index < next

namespace Reads

variable {source : Source} {text masked : List Char} (reads : source.Reads text masked)

include reads

theorem pairwise_lineStarts : source.lineStarts.toList.Pairwise (· < ·) := by
  rw [reads.lineStarts_eq, List.toList_toArray]
  refine .cons (fun start member => ?_) (pairwise_breaksFrom _ _)
  obtain ⟨place, _, rfl⟩ := mem_breaksFrom.1 member
  omega

/-- The line breaks of the text are those of the masked text. -/
theorem newline_iff (index : Nat) :
    source.text[index]? = some 10 ↔ source.masked[index]? = some 10 := by
  have byte (before after : List Char) :
      (utf8 (before ++ '\n' :: after))[byteLength before]? = some 10 :=
    getElem?_utf8_ascii (by decide)
  have isNewline {c : Char} (code : c.toNat = (10 : UInt8).toNat) : c = '\n' :=
    Char.ext (UInt32.toNat_inj.1 code)
  have masks := reads.masks
  rw [reads.text_eq, reads.masked_eq, List.getElem?_toArray, List.getElem?_toArray]
  constructor
  · intro plain
    obtain ⟨before, c, after, rfl, rfl, code⟩ := exists_split_of_byte plain (by decide)
    obtain rfl := isNewline code
    obtain ⟨front, back, rfl, first, second⟩ := masks.split
    obtain ⟨back, rfl, _⟩ := second.newline
    rw [← first.byteLength_eq]
    exact byte front back
  · intro hidden
    obtain ⟨front, c, back, rfl, rfl, code⟩ := exists_split_of_byte hidden (by decide)
    obtain rfl := isNewline code
    obtain ⟨before, after, rfl, first, second⟩ := masks.split_visible (.inr (by simp))
    rw [first.byteLength_eq]
    generalize whole : '\n' :: back = masked at second
    cases second with
    | nil => cases whole
    | keep c _ =>
        cases whole
        exact byte before _
    | @blank c _ _ _ _ =>
        obtain ⟨more, size⟩ := Nat.exists_eq_succ_of_ne_zero (Nat.ne_of_gt c.utf8Size_pos)
        rw [size, List.replicate_succ] at whole
        cases whole

theorem mem_lineStarts {start : Nat} : start ∈ source.lineStarts ↔
    start = 0 ∨ ∃ place, source.masked[place]? = some 10 ∧ start = place + 1 := by
  rw [reads.lineStarts_eq, List.mem_toArray, List.mem_cons, mem_breaksFrom]
  simp only [Nat.zero_add, ← reads.newline_iff, reads.text_eq, List.getElem?_toArray]

/-- Every offset is on a line. -/
theorem exists_onLine (index : Nat) :
    ∃ earlier start later, source.OnLine earlier start later index := by
  have sorted := reads.pairwise_lineStarts
  rw [reads.lineStarts_eq, List.toList_toArray] at sorted
  obtain ⟨earlier, start, later, split, lower, upper⟩ :=
    exists_split_of_pairwise sorted (Nat.zero_le index)
  exact ⟨earlier, start, later, by rw [reads.lineStarts_eq, split], lower, upper⟩

end Reads

namespace OnLine

variable {source : Source} {text masked : List Char} {earlier later : List Nat} {start index : Nat}
  (onLine : source.OnLine earlier start later index)

include onLine

/-- Another offset before the next line is on the same line. -/
theorem same {other : Nat} (lower : start ≤ other) (upper : ∀ next ∈ later, other < next) :
    source.OnLine earlier start later other := ⟨onLine.starts, lower, upper⟩

theorem mem_start : start ∈ source.lineStarts := by
  rw [onLine.starts]
  simp

variable (reads : source.Reads text masked)

include reads

theorem lt_of_mem_earlier {before : Nat} (member : before ∈ earlier) : before < start := by
  have sorted := reads.pairwise_lineStarts
  rw [onLine.starts, List.toList_toArray] at sorted
  exact (List.pairwise_append.1 sorted).2.2 before member start List.mem_cons_self

theorem lt_of_mem_later {next : Nat} (member : next ∈ later) : start < next := by
  have sorted := reads.pairwise_lineStarts
  rw [onLine.starts, List.toList_toArray] at sorted
  exact (List.pairwise_cons.1 (List.pairwise_append.1 sorted).2.1).1 next member

theorem not_lt_of_mem {before : Nat} (member : before ∈ earlier ++ [start]) :
    decide (index < before) = false := by
  have lower := onLine.lower
  rw [decide_eq_false_iff_not, Nat.not_lt]
  rcases List.mem_append.1 member with member | member
  · exact Nat.le_trans (Nat.le_of_lt (onLine.lt_of_mem_earlier reads member)) lower
  · exact (List.mem_singleton.1 member).symm ▸ lower

theorem find?_eq : (source.lineStarts.find? fun next => index < next) = later.head? := by
  rw [onLine.starts, List.find?_toArray, ← List.singleton_append, ← List.append_assoc,
    List.find?_append, List.find?_eq_none.2 fun before member => by
      simp [onLine.not_lt_of_mem reads member], Option.none_or]
  cases later with
  | nil => rfl
  | cons next later =>
      rw [List.find?_cons_of_pos, List.head?_cons]
      exact decide_eq_true (onLine.upper next List.mem_cons_self)

theorem lineOf_eq : source.lineOf index = earlier.length := by
  have before : (earlier ++ [start]).findIdx (fun next => index < next) = earlier.length + 1 := by
    rw [List.findIdx_eq_length.2 fun before member => onLine.not_lt_of_mem reads member,
      List.length_append, List.length_singleton]
  have after : later.findIdx (fun next => index < next) = 0 := by
    cases later with
    | nil => rfl
    | cons next later =>
        rw [List.findIdx_cons, decide_eq_true (onLine.upper next List.mem_cons_self), cond_true]
  rw [lineOf, onLine.starts, List.findIdx_toArray, ← List.singleton_append, ← List.append_assoc,
    List.findIdx_append, before, after, List.length_append, List.length_singleton,
    if_neg (Nat.lt_irrefl _)]
  omega

theorem lineStart_eq : source.lineStart index = start := by
  rw [lineStart, onLine.lineOf_eq reads, onLine.starts]
  simp

theorem nextLineStart_eq : source.nextLineStart index = later.head?.getD source.size := by
  rw [nextLineStart, onLine.find?_eq reads]

/-- The next line follows a line break. -/
theorem exists_newline {next : Nat} (member : next ∈ later) :
    ∃ stop, source.masked[stop]? = some 10 ∧ next = stop + 1 := by
  have starts : next ∈ source.lineStarts := by
    rw [onLine.starts]
    simp [member]
  rcases reads.mem_lineStarts.1 starts with rfl | found
  · exact absurd (onLine.lt_of_mem_later reads member) (Nat.not_lt_zero _)
  · exact found

theorem start_le_size : start ≤ source.size := by
  rcases reads.mem_lineStarts.1 onLine.mem_start with rfl | ⟨place, newline, rfl⟩
  · exact Nat.zero_le _
  · exact (Array.getElem?_eq_some_iff.1 newline).1

/-- Where a line stops, be it at a line break or with the file. -/
theorem exists_stop : ∃ stop, start ≤ stop ∧
    (later.head? = some (stop + 1) ∧ source.masked[stop]? = some 10 ∨
      later = [] ∧ stop = source.size) ∧
    (source.lineEnd index = stop ∨ source.lineEnd index + 1 = stop ∧
      start ≤ source.lineEnd index ∧ source.masked[source.lineEnd index]? = some 13) := by
  have ends (stop : Nat) (lower : start ≤ stop) (upper : stop ≤ source.size)
      (eq : source.lineEnd index =
        if start < stop && source.byteAt (stop - 1) == 13 then stop - 1 else stop) :
      source.lineEnd index = stop ∨ source.lineEnd index + 1 = stop ∧
        start ≤ source.lineEnd index ∧ source.masked[source.lineEnd index]? = some 13 := by
    split at eq
    next isReturn =>
      rw [Bool.and_eq_true, decide_eq_true_eq, beq_iff_eq, ← eq] at isReturn
      have inside : source.lineEnd index < source.masked.size := by
        rw [← size]
        omega
      rw [byteAt, Array.getD_eq_getD_getElem?, Array.getElem?_eq_getElem inside,
        Option.getD_some] at isReturn
      refine .inr ⟨by omega, by omega, ?_⟩
      rw [Array.getElem?_eq_getElem inside, isReturn.2]
    next => exact .inl eq
  have eq : source.lineEnd index = source.lineStop start later.head? := by
    rw [lineEnd, onLine.lineStart_eq reads, onLine.find?_eq reads]
  cases later with
  | nil =>
      have lower := onLine.start_le_size reads
      exact ⟨source.size, lower, .inr ⟨rfl, rfl⟩, ends _ lower (Nat.le_refl _) eq⟩
  | cons next later =>
      obtain ⟨stop, newline, rfl⟩ := onLine.exists_newline reads List.mem_cons_self
      have lower := onLine.lt_of_mem_later reads List.mem_cons_self
      have inside : stop < source.size := (Array.getElem?_eq_some_iff.1 newline).1
      exact ⟨stop, by omega, .inl ⟨rfl, newline⟩, ends stop (by omega) (by omega) eq⟩

theorem lineEnd_lt_of_mem {next : Nat} (member : next ∈ later) : source.lineEnd index < next := by
  obtain ⟨stop, -, stops, ends⟩ := onLine.exists_stop reads
  have first : stop < next := by
    rcases stops with ⟨head, -⟩ | ⟨rfl, -⟩
    · cases later with
      | nil => cases head
      | cons other later =>
          obtain rfl := Option.some.inj head
          have sorted := reads.pairwise_lineStarts
          rw [onLine.starts, List.toList_toArray] at sorted
          rcases List.mem_cons.1 member with rfl | member
          · omega
          · have tail := (List.pairwise_cons.1 (List.pairwise_append.1 sorted).2.1).2
            have := (List.pairwise_cons.1 tail).1 next member
            omega
    · cases member
  omega

end OnLine

namespace Reads

variable {source : Source} {text masked : List Char} (reads : source.Reads text masked)

include reads

/-! ## Places on a line -/

theorem between_of_mem {start : Nat} (member : start ∈ source.lineStarts) :
    source.Between start := by
  rcases reads.mem_lineStarts.1 member with rfl | ⟨place, newline, rfl⟩
  · exact reads.between_zero
  · exact (reads.between_of_byte newline (by decide) (by decide)).2

theorem lineStart_mem (index : Nat) : source.lineStart index ∈ source.lineStarts := by
  obtain ⟨earlier, start, later, onLine⟩ := reads.exists_onLine index
  rw [onLine.lineStart_eq reads]
  exact onLine.mem_start

theorem lineStart_le (index : Nat) : source.lineStart index ≤ index := by
  obtain ⟨earlier, start, later, onLine⟩ := reads.exists_onLine index
  rw [onLine.lineStart_eq reads]
  exact onLine.lower

theorem between_lineStart (index : Nat) : source.Between (source.lineStart index) :=
  reads.between_of_mem (reads.lineStart_mem index)

theorem lineStart_le_lineEnd (index : Nat) : source.lineStart index ≤ source.lineEnd index := by
  obtain ⟨earlier, start, later, onLine⟩ := reads.exists_onLine index
  obtain ⟨stop, lower, -, rfl | ⟨-, le, -⟩⟩ := onLine.exists_stop reads
  · rwa [onLine.lineStart_eq reads]
  · rwa [onLine.lineStart_eq reads]

theorem between_lineEnd (index : Nat) : source.Between (source.lineEnd index) := by
  obtain ⟨earlier, start, later, onLine⟩ := reads.exists_onLine index
  obtain ⟨stop, -, stops, eq | ⟨-, -, isReturn⟩⟩ := onLine.exists_stop reads
  · rcases stops with ⟨-, newline⟩ | ⟨-, ended⟩
    · rw [eq]
      exact (reads.between_of_byte newline (by decide) (by decide)).1
    · rw [eq, ended]
      exact reads.between_size
  · exact (reads.between_of_byte isReturn (by decide) (by decide)).1

theorem lineEnd_le_size (index : Nat) : source.lineEnd index ≤ source.size := by
  obtain ⟨earlier, start, later, onLine⟩ := reads.exists_onLine index
  obtain ⟨stop, -, stops, ends⟩ := onLine.exists_stop reads
  have inside : stop ≤ source.size := by
    rcases stops with ⟨-, newline⟩ | ⟨-, ended⟩
    · exact Nat.le_of_lt (Array.getElem?_eq_some_iff.1 newline).1
    · exact Nat.le_of_eq ended
  omega

/-- A byte that ends no line lies before the end of its line. -/
theorem lt_lineEnd {index : Nat} {b : UInt8} (byte : source.masked[index]? = some b)
    (newline : b ≠ 10) (isReturn : b ≠ 13) : index < source.lineEnd index := by
  obtain ⟨earlier, start, later, onLine⟩ := reads.exists_onLine index
  obtain ⟨stop, -, stops, ends⟩ := onLine.exists_stop reads
  have before : index < stop := by
    rcases stops with ⟨head, isNewline⟩ | ⟨-, rfl⟩
    · have upper := onLine.upper _ (List.mem_of_mem_head? head)
      have other : index ≠ stop := by
        rintro rfl
        exact newline (Option.some.inj (byte.symm.trans isNewline))
      omega
    · exact (Array.getElem?_eq_some_iff.1 byte).1
  rcases ends with eq | ⟨eq, -, atReturn⟩
  · omega
  · have other : index ≠ source.lineEnd index := by
      intro same
      rw [← same] at atReturn
      exact isReturn (Option.some.inj (byte.symm.trans atReturn))
    omega

/-- From the start of a line to its end everything is on that line. -/
theorem same_line {index other : Nat} (lower : source.lineStart index ≤ other)
    (upper : other ≤ source.lineEnd index) : source.lineOf other = source.lineOf index ∧
      source.lineStart other = source.lineStart index ∧
      source.lineEnd other = source.lineEnd index := by
  obtain ⟨earlier, start, later, onLine⟩ := reads.exists_onLine index
  have there := onLine.same (by rwa [onLine.lineStart_eq reads] at lower) fun next member =>
    Nat.lt_of_le_of_lt upper (onLine.lineEnd_lt_of_mem reads member)
  refine ⟨?_, ?_, ?_⟩
  · rw [onLine.lineOf_eq reads, there.lineOf_eq reads]
  · rw [onLine.lineStart_eq reads, there.lineStart_eq reads]
  · rw [lineEnd, lineEnd, onLine.lineStart_eq reads, there.lineStart_eq reads,
      onLine.find?_eq reads, there.find?_eq reads]

theorem lineStart_of_mem {start : Nat} (member : start ∈ source.lineStarts) :
    source.lineStart start = start := by
  obtain ⟨earlier, first, later, onLine⟩ := reads.exists_onLine start
  rw [onLine.lineStart_eq reads]
  have place := member
  rw [onLine.starts] at place
  simp only [List.mem_toArray, List.mem_append, List.mem_cons] at place
  rcases place with before | rfl | after
  · have := onLine.lt_of_mem_earlier reads before
    have := onLine.lower
    omega
  · rfl
  · exact absurd (onLine.upper start after) (Nat.lt_irrefl _)

/-- An offset's line is the last one that starts no later. -/
theorem le_lineStart {start index : Nat} (member : start ∈ source.lineStarts) (le : start ≤ index) :
    start ≤ source.lineStart index := by
  obtain ⟨earlier, first, later, onLine⟩ := reads.exists_onLine index
  rw [onLine.lineStart_eq reads]
  rw [onLine.starts] at member
  simp only [List.mem_toArray, List.mem_append, List.mem_cons] at member
  rcases member with before | rfl | after
  · exact Nat.le_of_lt (onLine.lt_of_mem_earlier reads before)
  · exact Nat.le_refl _
  · exact absurd (onLine.upper start after) (Nat.not_lt.2 le)

/-- An offset before the start of a line is on an earlier line. -/
theorem lineOf_lt {index start : Nat} (member : start ∈ source.lineStarts) (before : index < start) :
    source.lineOf index < source.lineOf start := by
  refine Nat.lt_of_le_of_ne (source.lineOf_mono (Nat.le_of_lt before)) fun same => ?_
  have lower := reads.lineStart_le index
  rw [lineStart, same, ← lineStart, reads.lineStart_of_mem member] at lower
  omega

/-- The next line starts after the first line break. -/
theorem nextLineStart_eq_of_mem {index next : Nat} (member : next ∈ source.lineStarts)
    (after : index < next)
    (plain : ∀ place, index ≤ place → place + 1 < next → source.masked[place]? ≠ some 10) :
    source.nextLineStart index = next := by
  obtain ⟨earlier, start, later, onLine⟩ := reads.exists_onLine index
  have lower := onLine.lower
  have place := member
  rw [onLine.starts] at place
  simp only [List.mem_toArray, List.mem_append, List.mem_cons] at place
  rw [onLine.nextLineStart_eq reads]
  rcases place with before | rfl | found
  · have := onLine.lt_of_mem_earlier reads before
    omega
  · omega
  · cases later with
    | nil => cases found
    | cons first later =>
        obtain ⟨stop, newline, rfl⟩ := onLine.exists_newline reads List.mem_cons_self
        have upper := onLine.upper _ List.mem_cons_self
        rw [List.head?_cons, Option.getD_some]
        by_contra other
        have sorted := reads.pairwise_lineStarts
        rw [onLine.starts, List.toList_toArray] at sorted
        obtain ⟨apart, -⟩ :=
          List.pairwise_cons.1 (List.pairwise_cons.1 (List.pairwise_append.1 sorted).2.1).2
        have further : stop + 1 < next := by
          rcases List.mem_cons.1 found with rfl | found
          · exact absurd rfl other
          · exact apart next found
        exact plain stop (by omega) further newline

/-- A line without a carriage return ends at its line break. -/
theorem lineEnd_eq_of_newline {start stop : Nat} (member : start ∈ source.lineStarts)
    (le : start ≤ stop) (newline : source.masked[stop]? = some 10)
    (plain : ∀ place, start ≤ place → place < stop →
      source.masked[place]? ≠ some 10 ∧ source.masked[place]? ≠ some 13) :
    source.lineEnd start = stop := by
  have next : stop + 1 ∈ source.lineStarts := reads.mem_lineStarts.2 (.inr ⟨stop, newline, rfl⟩)
  have found := reads.nextLineStart_eq_of_mem next (Nat.lt_succ_of_le le)
    fun place lower upper => (plain place lower (by omega)).1
  obtain ⟨earlier, first, later, onLine⟩ := reads.exists_onLine start
  obtain ⟨last, lower, rest, ends⟩ := onLine.exists_stop reads
  have first_eq := onLine.lineStart_eq reads
  rw [reads.lineStart_of_mem member] at first_eq
  rw [onLine.nextLineStart_eq reads] at found
  obtain rfl : last = stop := by
    rcases rest with ⟨head, -⟩ | ⟨rfl, size_eq⟩
    · rw [head, Option.getD_some] at found
      omega
    · have inFile := (Array.getElem?_eq_some_iff.1 newline).1
      rw [onLine.starts, List.mem_toArray, List.mem_append, List.mem_singleton] at next
      rcases next with before | here
      · have := onLine.lt_of_mem_earlier reads before
        omega
      · omega
  rcases ends with eq | ⟨eq, after, isReturn⟩
  · exact eq
  · exact absurd isReturn (plain _ (by omega) (by omega)).2

/-- The line with a number, counted from zero. -/
theorem onLine_of_getElem? {line start : Nat} (here : source.lineStarts[line]? = some start) :
    source.OnLine (source.lineStarts.toList.take line) start
      (source.lineStarts.toList.drop (line + 1)) start := by
  obtain ⟨inside, eq⟩ := Array.getElem?_eq_some_iff.1 here
  have split : source.lineStarts.toList = source.lineStarts.toList.take line ++
      start :: source.lineStarts.toList.drop (line + 1) := by
    rw [← eq, ← Array.getElem_toList, ← List.drop_eq_getElem_cons, List.take_append_drop]
  have sorted := reads.pairwise_lineStarts
  rw [split] at sorted
  refine ⟨Array.toList_inj.1 split, Nat.le_refl _, ?_⟩
  exact (List.pairwise_cons.1 (List.pairwise_append.1 sorted).2.1).1

theorem lineOf_of_getElem? {line start : Nat} (here : source.lineStarts[line]? = some start) :
    source.lineOf start = line := by
  obtain ⟨inside, -⟩ := Array.getElem?_eq_some_iff.1 here
  rw [(reads.onLine_of_getElem? here).lineOf_eq reads, List.length_take, Array.length_toList]
  omega

theorem getElem?_lineOf (index : Nat) :
    source.lineStarts[source.lineOf index]? = some (source.lineStart index) := by
  obtain ⟨earlier, start, later, onLine⟩ := reads.exists_onLine index
  rw [onLine.lineOf_eq reads, onLine.lineStart_eq reads, onLine.starts]
  simp

/-- The text of a line by its number. -/
theorem lineText?_succ (line : Nat) : source.lineText? (line + 1) =
    (source.lineStarts[line]?).map fun start => String.ofList (source.maskedLine start) := by
  rw [lineText?, if_neg (by simp), Nat.add_sub_cancel]
  cases here : source.lineStarts[line]? with
  | none => rfl
  | some start =>
      have onLine := reads.onLine_of_getElem? here
      rw [Option.map_some, Option.map_some, maskedLine, lineEnd, onLine.lineStart_eq reads,
        onLine.find?_eq reads, List.head?_drop, Array.getElem?_toList]

theorem between_nextLineStart (index : Nat) : source.Between (source.nextLineStart index) := by
  obtain ⟨earlier, start, later, onLine⟩ := reads.exists_onLine index
  rw [onLine.nextLineStart_eq reads]
  cases later with
  | nil => exact reads.between_size
  | cons next later =>
      refine reads.between_of_mem ?_
      rw [onLine.starts]
      simp

theorem lineEnd_le_nextLineStart (index : Nat) :
    source.lineEnd index ≤ source.nextLineStart index := by
  obtain ⟨earlier, start, later, onLine⟩ := reads.exists_onLine index
  rw [onLine.nextLineStart_eq reads]
  cases later with
  | nil => exact reads.lineEnd_le_size index
  | cons next later => exact Nat.le_of_lt (onLine.lineEnd_lt_of_mem reads List.mem_cons_self)

/-- A line that starts after an offset starts after the end of its line. -/
theorem lineEnd_lt {index start : Nat} (member : start ∈ source.lineStarts)
    (after : index < start) : source.lineEnd index < start := by
  obtain ⟨earlier, first, later, onLine⟩ := reads.exists_onLine index
  refine onLine.lineEnd_lt_of_mem reads ?_
  rw [onLine.starts] at member
  simp only [List.mem_toArray, List.mem_append, List.mem_cons] at member
  have lower := onLine.lower
  rcases member with before | rfl | found
  · have := onLine.lt_of_mem_earlier reads before
    omega
  · omega
  · exact found

omit reads in
theorem byteLength_indents (part : List Char) :
    byteLength (part.takeWhile isIndent) = (part.takeWhile isIndent).length := by
  refine byteLength_of_le fun c member => ?_
  have indents := List.mem_takeWhile_imp member
  rw [isIndent, Bool.or_eq_true, beq_iff_eq, beq_iff_eq] at indents
  rcases indents with rfl | rfl <;> decide

omit reads in
theorem codeStart_le_add (pos : Nat) (part : List Char) :
    codeStart pos part ≤ pos + byteLength part := by
  have split := congrArg byteLength (List.takeWhile_append_dropWhile (p := isIndent) (l := part))
  rw [byteLength_append, byteLength_indents] at split
  unfold codeStart
  omega

/-- The code of a stretch begins, if it has any, between two characters. -/
theorem between_codeStart {front part back : List Char} (hidden : masked = front ++ part ++ back)
    (last : source.Between (byteLength front + byteLength part)) :
    source.Between (codeStart (byteLength front) part) := by
  have split : part = part.takeWhile isIndent ++ part.dropWhile isIndent :=
    List.takeWhile_append_dropWhile.symm
  have length := congrArg byteLength split
  rw [byteLength_append, byteLength_indents] at length
  cases code : part.dropWhile isIndent with
  | nil =>
      rw [code, byteLength_nil, Nat.add_zero] at length
      rwa [codeStart, ← length]
  | cons c more =>
      have other : isIndent c = false := by
        have head := List.head?_dropWhile_not isIndent part
        rwa [code] at head
      have whole : masked = (front ++ part.takeWhile isIndent) ++ (c :: more ++ back) := by
        rw [List.append_assoc, ← List.append_assoc _ _ back, ← code, ← split,
          ← List.append_assoc, hidden]
      have place := reads.between_of_masked whole (.inr (by rintro ⟨⟩; cases other))
      rwa [byteLength_append, byteLength_indents] at place

/-- The characters of the masked form of a line. -/
theorem exists_maskedLine (index : Nat) : ∃ front back,
    masked = front ++ source.maskedLine index ++ back ∧
      byteLength front = source.lineStart index ∧
      byteLength front + byteLength (source.maskedLine index) = source.lineEnd index := by
  obtain ⟨front, part, back, hidden, start, stop, chars⟩ :=
    reads.exists_part_masked (reads.lineStart_le_lineEnd index)
      (reads.between_lineStart index).masked (reads.between_lineEnd index).masked
  rw [maskedLine, chars]
  exact ⟨front, back, hidden, start, stop⟩

/-- The characters of a line of the text. -/
theorem exists_rawLine (index : Nat) : ∃ before after,
    text = before ++ source.rawLine index ++ after ∧
      byteLength before = source.lineStart index ∧
      byteLength before + byteLength (source.rawLine index) = source.lineEnd index := by
  have first := (reads.between_lineStart index).text
  have last := (reads.between_lineEnd index).text
  rw [reads.text_eq] at first last
  obtain ⟨before, part, after, plain, start, stop, chars⟩ :=
    exists_part (reads.lineStart_le_lineEnd index) first last
  rw [rawLine, reads.text_eq, chars]
  exact ⟨before, after, plain, start, stop⟩

theorem between_indent (index : Nat) :
    source.Between (source.lineStart index + source.indent index) ∧
      source.lineStart index + source.indent index ≤ source.lineEnd index := by
  obtain ⟨front, back, hidden, start, stop⟩ := reads.exists_maskedLine index
  have last := reads.between_lineEnd index
  rw [← stop] at last
  have code := reads.between_codeStart hidden last
  have inside := codeStart_le_add (byteLength front) (source.maskedLine index)
  rw [stop, start] at inside
  rw [start] at code
  exact ⟨code, inside⟩

end Reads
end Source
end DebugBridge
