import DebugBridge.Proofs.Script.Returns
import DebugBridge.Proofs.Script.Trailing
import Mathlib.Data.List.Find

/-!
# The lines of a file with carriage returns

A file and the file with a carriage return before each of its line breaks have the same lines, each
moved by as many bytes as there are lines before it.  The text of a line stays as it is, but where the
line ends in a masked part: there the carriage return is masked, too, and the line ends in a blank.
-/

namespace DebugBridge
namespace Source

open Text Mask

/-- What follows the line of an offset is known from the number of the line. -/
theorem Reads.nextLine?_eq {source : Source} {text masked : List Char} (reads : source.Reads text masked)
    (index : Nat) : (source.lineStarts.find? fun start => index < start) =
      source.lineStarts[source.lineOf index + 1]? := by
  obtain ⟨earlier, start, later, onLine⟩ := reads.exists_onLine index
  rw [onLine.find?_eq reads, onLine.lineOf_eq reads, onLine.starts, List.getElem?_toArray,
    List.getElem?_append_right (by omega), Nat.add_sub_cancel_left, List.getElem?_cons_succ,
    List.head?_eq_getElem?]

/-- Where nothing but blanks and tabs is on a line, its code would begin at its end. -/
theorem Reads.indent_of_indents {source : Source} {text masked : List Char}
    (reads : source.Reads text masked) {index : Nat}
    (blank : ∀ c ∈ source.maskedLine index, isIndent c = true) :
    source.lineStart index + source.indent index = source.lineEnd index := by
  obtain ⟨front, back, -, start, stop⟩ := reads.exists_maskedLine index
  have length := Reads.byteLength_indents (source.maskedLine index)
  rw [List.takeWhile_eq_self_iff.2 blank] at length
  rw [indent, List.takeWhile_eq_self_iff.2 blank, ← length, ← start, stop]

/-- No line break comes before the end of its line. -/
theorem Reads.ne_newline {source : Source} {text masked : List Char} (reads : source.Reads text masked)
    {index place : Nat} (lower : source.lineStart index ≤ place) (upper : place < source.lineEnd index) :
    source.masked[place]? ≠ some 10 := by
  intro newline
  have member : place + 1 ∈ source.lineStarts := reads.mem_lineStarts.2 (.inr ⟨place, newline, rfl⟩)
  rcases Nat.lt_or_ge index (place + 1) with before | after
  · have := reads.lineEnd_lt member before
    omega
  · have := reads.le_lineStart member after
    omega

section Bytes

variable {chars chars' : List Char} (returned : Returned (utf8 chars) (utf8 chars'))

include returned

/-- Places between characters stay such, and more come with the line breaks. -/
theorem isBoundary_returned {index index' : Nat} (goes : index' = carry (utf8 chars) index ∨
      (utf8 chars)[index]? = some 10 ∧ index' = carry (utf8 chars) index + 1) :
    isBoundary (utf8 chars').toArray index' = isBoundary (utf8 chars).toArray index := by
  rw [isBoundary, isBoundary, List.getElem?_toArray, List.getElem?_toArray]
  by_cases newline : (utf8 chars)[index]? = some 10
  · obtain ⟨⟨b, kind, byte⟩, next⟩ := returned.getElem?_newline newline
    rcases goes with rfl | ⟨-, rfl⟩
    · rw [newline, byte]
      rcases kind with rfl | rfl <;> rfl
    · rw [newline, next]
  · obtain rfl := goes.resolve_right fun other => newline other.1
    rw [returned.getElem?_eq newline]
    cases (utf8 chars)[index]? with
    | some b => rfl
    | none =>
        rw [List.size_toArray, List.size_toArray, returned.length_eq, Bool.eq_iff_iff, beq_iff_eq,
          beq_iff_eq]
        exact (carry_strictMono _).injective.eq_iff

variable {start stop : Nat}
  (inLine : ∀ place, start ≤ place → place < stop → (utf8 chars)[place]? ≠ some 10)

include inLine

/-- The characters of a stretch of a line. -/
theorem charsOf_returned : charsOf (utf8 chars').toArray (carry (utf8 chars) start)
    (carry (utf8 chars) stop) = charsOf (utf8 chars).toArray start stop := by
  have bytes : ((utf8 chars').toArray.extract (carry (utf8 chars) start) (carry (utf8 chars) stop)).toList =
      ((utf8 chars).toArray.extract start stop).toList := by
    simp only [List.extract_toArray, List.extract_eq_take_drop]
    rcases Nat.le_total start stop with le | le
    · obtain ⟨count, rfl⟩ := Nat.exists_eq_add_of_le le
      rw [carry_add inLine, Nat.add_sub_cancel_left, Nat.add_sub_cancel_left,
        returned.take_drop_eq inLine]
    · have le' := (carry_strictMono (utf8 chars)).monotone le
      rw [Nat.sub_eq_zero_of_le le, Nat.sub_eq_zero_of_le le', List.take_zero, List.take_zero]
  rw [charsOf, charsOf, bytes]

/-- The characters of a stretch up to a line break, with the byte that is put before it. -/
theorem charsOf_returned_concat {c : Char} (le : start ≤ stop) (ascii : c.toNat < 0x80)
    (first : isBoundary (utf8 chars).toArray start) (last : isBoundary (utf8 chars).toArray stop)
    (put : (utf8 chars')[carry (utf8 chars) stop]? = some (UInt8.ofNat c.toNat)) :
    charsOf (utf8 chars').toArray (carry (utf8 chars) start) (carry (utf8 chars) stop + 1) =
      charsOf (utf8 chars).toArray start stop ++ [c] := by
  obtain ⟨before, part, after, split, rfl, rfl, chars_eq⟩ := exists_part le first last
  rw [carry_add inLine] at put ⊢
  have bytes : ((utf8 chars').drop (carry (utf8 chars) (byteLength before))).take (byteLength part) =
      utf8 part := by
    rw [returned.take_drop_eq inLine, split, List.append_assoc, utf8_append, utf8_append,
      List.drop_left' (length_utf8 before), List.take_left' (length_utf8 part)]
  have whole : ((utf8 chars').toArray.extract (carry (utf8 chars) (byteLength before))
      (carry (utf8 chars) (byteLength before) + byteLength part + 1)).toList = utf8 (part ++ [c]) := by
    have one : utf8 [c] = [UInt8.ofNat c.toNat] := by
      rw [utf8_cons, utf8EncodeChar_of_le (by omega)]
      rfl
    rw [List.extract_toArray, List.toList_toArray, List.extract_eq_take_drop,
      show carry (utf8 chars) (byteLength before) + byteLength part + 1 -
        carry (utf8 chars) (byteLength before) = byteLength part + 1 by omega,
      List.take_add_one, bytes, List.getElem?_drop, put, utf8_append, one]
    rfl
  rw [chars_eq, charsOf, whole, utf8Lossy_utf8]

end Bytes

/-- A file, and the same one with carriage returns before its line breaks. -/
structure Returning (source returned : Source) where
  text : List Char
  masked : List Char
  text' : List Char
  masked' : List Char
  path_eq : returned.path = source.path
  reads : source.Reads text masked
  reads' : returned.Reads text' masked'
  plain : '\r' ∉ masked
  text_returned : Returned (utf8 text) (utf8 text')
  masked_returned : Returned (utf8 masked) (utf8 masked')

namespace Returning

variable {source returned : Source} (returns : source.Returning returned)

/-- Where the byte at an offset goes. -/
def move (index : Nat) : Nat := carry (utf8 returns.masked) index

/-- Whether an offset of the file with carriage returns belongs to the byte at an offset of the file
without them: a line break has the carriage return before it as well. -/
def Covers (index index' : Nat) : Prop := returns.move index ≤ index' ∧ index' < returns.move (index + 1)

/-! ## Bytes -/

section Bytes

include returns

theorem masked_getElem? (index : Nat) : (utf8 returns.masked)[index]? = source.masked[index]? := by
  rw [returns.reads.masked_eq, List.getElem?_toArray]

theorem move_lt_move {index other : Nat} : returns.move index < returns.move other ↔ index < other :=
  (carry_strictMono _).lt_iff_lt

theorem move_le_move {index other : Nat} : returns.move index ≤ returns.move other ↔ index ≤ other :=
  (carry_strictMono _).le_iff_le

theorem move_inj {index other : Nat} : returns.move index = returns.move other ↔ index = other :=
  (carry_strictMono _).injective.eq_iff

theorem move_zero : returns.move 0 = 0 := rfl

theorem move_min (index other : Nat) :
    returns.move (min index other) = min (returns.move index) (returns.move other) :=
  (carry_strictMono _).monotone.map_min

theorem move_succ_of_ne {index : Nat} (other : source.masked[index]? ≠ some 10) :
    returns.move (index + 1) = returns.move index + 1 :=
  carry_succ_of_ne (by rwa [returns.masked_getElem?])

theorem move_succ_of_newline {index : Nat} (newline : source.masked[index]? = some 10) :
    returns.move (index + 1) = returns.move index + 2 :=
  carry_succ_of_newline (by rwa [returns.masked_getElem?])

/-- The text moves as its masked form does. -/
theorem move_eq_carry_text (index : Nat) : returns.move index = carry (utf8 returns.text) index := by
  refine carry_congr (fun place => ?_) index
  have same := returns.reads.newline_iff place
  rwa [returns.reads.text_eq, returns.reads.masked_eq, List.getElem?_toArray, List.getElem?_toArray,
    Iff.comm] at same

theorem size_move : returned.size = returns.move source.size := by
  have length := returns.masked_returned.length_eq
  rw [length_utf8, ← returns.reads'.size_eq, length_utf8, ← returns.reads.size_eq] at length
  exact length

theorem masked_move {index : Nat} (other : source.masked[index]? ≠ some 10) :
    returned.masked[returns.move index]? = source.masked[index]? := by
  rw [← returns.masked_getElem?] at other ⊢
  rw [returns.reads'.masked_eq, List.getElem?_toArray]
  exact returns.masked_returned.getElem?_eq other

theorem byteAt_move {index : Nat} (other : source.masked[index]? ≠ some 10) :
    returned.byteAt (returns.move index) = source.byteAt index := by
  rw [byteAt, byteAt, Array.getD_eq_getD_getElem?, Array.getD_eq_getD_getElem?, returns.masked_move other]

theorem masked_newline {index : Nat} (newline : source.masked[index]? = some 10) :
    (∃ b, (b = 13 ∨ b = 32) ∧ returned.masked[returns.move index]? = some b) ∧
      returned.masked[returns.move index + 1]? = some 10 := by
  rw [← returns.masked_getElem?] at newline
  rw [returns.reads'.masked_eq, List.getElem?_toArray, List.getElem?_toArray]
  exact returns.masked_returned.getElem?_newline newline

theorem text_move {index : Nat} (other : source.masked[index]? ≠ some 10) :
    returned.text[returns.move index]? = source.text[index]? := by
  rw [Ne, ← returns.reads.newline_iff, returns.reads.text_eq, List.getElem?_toArray] at other
  rw [returns.reads.text_eq, returns.reads'.text_eq, List.getElem?_toArray, List.getElem?_toArray,
    returns.move_eq_carry_text]
  exact returns.text_returned.getElem?_eq other

theorem text_newline {index : Nat} (newline : source.masked[index]? = some 10) :
    (∃ b, (b = 13 ∨ b = 32) ∧ returned.text[returns.move index]? = some b) ∧
      returned.text[returns.move index + 1]? = some 10 := by
  rw [← returns.reads.newline_iff, returns.reads.text_eq, List.getElem?_toArray] at newline
  rw [returns.reads'.text_eq, List.getElem?_toArray, List.getElem?_toArray, returns.move_eq_carry_text]
  exact returns.text_returned.getElem?_newline newline

/-- No carriage return is in the file without them. -/
theorem masked_ne_return (index : Nat) : source.masked[index]? ≠ some 13 := by
  intro isReturn
  rw [← returns.masked_getElem?] at isReturn
  obtain ⟨before, c, after, split, -, code⟩ := exists_split_of_byte isReturn (by decide)
  obtain rfl : c = '\r' := Char.ext (UInt32.toNat_inj.1 code)
  exact returns.plain (by rw [split]; simp)

end Bytes

/-! ## Offsets of the same byte -/

section Covers

variable {returns} {index index' other other' : Nat}

variable (returns) in
theorem covers_move (index : Nat) : returns.Covers index (returns.move index) :=
  ⟨Nat.le_refl _, returns.move_lt_move.2 (Nat.lt_succ_self _)⟩

variable (returns) in
theorem covers_newline (newline : source.masked[index]? = some 10) :
    returns.Covers index (returns.move index + 1) :=
  ⟨Nat.le_succ _, by rw [returns.move_succ_of_newline newline]; omega⟩

theorem Covers.cases (covers : returns.Covers index index') : index' = returns.move index ∨
    source.masked[index]? = some 10 ∧ index' = returns.move index + 1 := by
  obtain ⟨lower, upper⟩ := covers
  by_cases newline : source.masked[index]? = some 10
  · rw [returns.move_succ_of_newline newline] at upper
    rcases Nat.eq_or_lt_of_le lower with eq | after
    · exact .inl eq.symm
    · exact .inr ⟨newline, by omega⟩
  · rw [returns.move_succ_of_ne newline] at upper
    exact .inl (by omega)

theorem Covers.eq (covers : returns.Covers index index') (other : source.masked[index]? ≠ some 10) :
    index' = returns.move index :=
  covers.cases.resolve_right fun newline => other newline.1

/-- What follows the byte at an offset follows all that belongs to it. -/
theorem Covers.lt_move_iff (covers : returns.Covers index index') (place : Nat) :
    index' < returns.move place ↔ index < place := by
  constructor
  · exact fun before => returns.move_lt_move.1 (Nat.lt_of_le_of_lt covers.1 before)
  · exact fun before => Nat.lt_of_lt_of_le covers.2 (returns.move_le_move.2 before)

theorem covers_min (covers : returns.Covers index index') (covers' : returns.Covers other other') :
    returns.Covers (min index other) (min index' other') := by
  rcases Nat.lt_trichotomy index other with before | rfl | after
  · have := (covers.lt_move_iff other).2 before
    have := covers'.1
    rwa [Nat.min_eq_left (by omega), Nat.min_eq_left (by omega)]
  · exact ⟨by rw [Nat.min_self]; exact Nat.le_min.2 ⟨covers.1, covers'.1⟩,
      by rw [Nat.min_self]; exact Nat.lt_of_le_of_lt (Nat.min_le_left _ _) covers.2⟩
  · have := (covers'.lt_move_iff index).2 after
    have := covers.1
    rwa [Nat.min_eq_right (by omega), Nat.min_eq_right (by omega)]

theorem covers_max (covers : returns.Covers index index') (covers' : returns.Covers other other') :
    returns.Covers (max index other) (max index' other') := by
  rcases Nat.lt_trichotomy index other with before | rfl | after
  · have := (covers.lt_move_iff other).2 before
    have := covers'.1
    rwa [Nat.max_eq_right (by omega), Nat.max_eq_right (by omega)]
  · exact ⟨by rw [Nat.max_self]; exact Nat.le_trans covers.1 (Nat.le_max_left _ _),
      by rw [Nat.max_self]; exact Nat.max_lt.2 ⟨covers.2, covers'.2⟩⟩
  · have := (covers'.lt_move_iff index).2 after
    have := covers.1
    rwa [Nat.max_eq_left (by omega), Nat.max_eq_left (by omega)]

variable (returns) in
/-- The byte before a place comes right before where the place goes. -/
theorem covers_pred (place : Nat) : returns.Covers (place - 1) (returns.move place - 1) := by
  cases place with
  | zero => exact returns.covers_move 0
  | succ index =>
      have before : returns.move index < returns.move (index + 1) :=
        returns.move_lt_move.2 (Nat.lt_succ_self index)
      rw [Nat.add_sub_cancel]
      exact ⟨by omega, by omega⟩

end Covers

/-! ## Lines -/

section Lines

theorem lineStarts_eq : returned.lineStarts = source.lineStarts.map returns.move := by
  rw [returns.reads.lineStarts_eq, returns.reads'.lineStarts_eq,
    returns.text_returned.breaksFrom_eq 0 0, List.map_toArray, List.map_cons]
  simp only [Nat.zero_add, Nat.sub_zero, ← returns.move_eq_carry_text]
  rfl

/-- A search among the lines. -/
theorem find?_move {p p' : Nat → Bool}
    (same : ∀ start ∈ source.lineStarts, p' (returns.move start) = p start) :
    returned.lineStarts.find? p' = (source.lineStarts.find? p).map returns.move := by
  rw [returns.lineStarts_eq, Array.find?_map, ← Array.find?_toList, ← Array.find?_toList]
  exact congrArg (Option.map returns.move)
    (List.find?_congr fun start member => same start (Array.mem_toList_iff.1 member))

variable {returns} {index index' : Nat}

theorem Covers.lineOf_eq (covers : returns.Covers index index') :
    returned.lineOf index' = source.lineOf index := by
  have same : (fun start => decide (index' < start)) ∘ returns.move = fun start => decide (index < start) :=
    funext fun start => decide_eq_decide.2 (covers.lt_move_iff start)
  have starts : source.lineStarts.toList.toArray = source.lineStarts := Array.toArray_toList
  rw [lineOf, lineOf, returns.lineStarts_eq, ← starts, List.map_toArray, List.findIdx_toArray,
    List.findIdx_toArray, List.findIdx_map, same]

variable (returns) (level : returned.lineOf index' = source.lineOf index)

include level

theorem lineStart_eq : returned.lineStart index' = returns.move (source.lineStart index) := by
  rw [lineStart, lineStart, level, returns.lineStarts_eq, Array.getD_eq_getD_getElem?,
    Array.getD_eq_getD_getElem?, Array.getElem?_map]
  cases source.lineStarts[source.lineOf index]? <;> rfl

theorem nextLine?_move : (returned.lineStarts.find? fun start => index' < start) =
    (source.lineStarts.find? fun start => index < start).map returns.move := by
  rw [returns.reads.nextLine?_eq, returns.reads'.nextLine?_eq, level, returns.lineStarts_eq,
    Array.getElem?_map]

theorem nextLineStart_eq : returned.nextLineStart index' = returns.move (source.nextLineStart index) := by
  rw [nextLineStart, nextLineStart, returns.nextLine?_move level, returns.size_move]
  cases source.lineStarts.find? fun start => index < start <;> rfl

/-- A line ends where it ended, or after a carriage return that is masked. -/
theorem lineEnd_cases : returned.lineEnd index' = returns.move (source.lineEnd index) ∨
    source.masked[source.lineEnd index]? = some 10 ∧
      returned.masked[returns.move (source.lineEnd index)]? = some 32 ∧
        returned.lineEnd index' = returns.move (source.lineEnd index) + 1 := by
  obtain ⟨earlier, start, later, onLine⟩ := returns.reads.exists_onLine index
  have noReturn (place : Nat) : source.byteAt place ≠ 13 := fun isReturn =>
    returns.masked_ne_return place (getElem?_of_byteAt isReturn (by decide))
  have here : source.lineEnd index = source.lineStop start later.head? := by
    rw [lineEnd, onLine.lineStart_eq returns.reads, onLine.find?_eq returns.reads]
  have there : returned.lineEnd index' =
      returned.lineStop (returns.move start) (later.head?.map returns.move) := by
    rw [lineEnd, returns.lineStart_eq level, returns.nextLine?_move level,
      onLine.lineStart_eq returns.reads, onLine.find?_eq returns.reads]
  cases later with
  | nil =>
      have last : source.lineEnd index = source.size :=
        here.trans (lineStop_eq (.inr ⟨rfl, rfl⟩) fun _ => noReturn _)
      rw [last, there]
      refine .inl (lineStop_eq (.inr ⟨rfl, returns.size_move⟩) fun inside => ?_)
      have before := returns.move_lt_move.1 inside
      have other : source.masked[source.size - 1]? ≠ some 10 := by
        refine returns.reads.ne_newline ?_ (Nat.sub_lt (by omega) Nat.one_pos |>.trans_eq last.symm)
        rw [onLine.lineStart_eq returns.reads]
        omega
      have next := returns.move_succ_of_ne other
      rw [Nat.sub_add_cancel (by omega)] at next
      rw [next, Nat.add_sub_cancel, returns.byteAt_move other]
      exact noReturn _
  | cons next later =>
      obtain ⟨stop, newline, rfl⟩ := onLine.exists_newline returns.reads List.mem_cons_self
      have last : source.lineEnd index = stop := here.trans (lineStop_eq (.inl rfl) fun _ => noReturn _)
      have lower : returns.move start ≤ returns.move stop :=
        returns.move_le_move.2 (Nat.le_of_lt_succ (onLine.lt_of_mem_later returns.reads List.mem_cons_self))
      obtain ⟨⟨b, kind, byte⟩, -⟩ := returns.masked_newline newline
      rw [last, there, List.head?_cons, Option.map_some, lineStop, returns.move_succ_of_newline newline]
      -- A carriage return is left out of its line unless it is masked.
      split
      · exact .inl rfl
      next noReturn =>
        rw [Bool.and_eq_true, decide_eq_true_eq, beq_iff_eq, byteAt,
          Array.getD_eq_getD_getElem?] at noReturn
        refine .inr ⟨newline, ?_, rfl⟩
        rcases kind with rfl | rfl
        · refine absurd ⟨?_, ?_⟩ noReturn
          · exact Nat.lt_succ_of_le lower
          · exact congrArg (Option.getD · 0) byte
        · exact byte

/-- A line ends at the line break or with the file, in one file as in the other. -/
theorem lineEnd_covers : returns.Covers (source.lineEnd index) (returned.lineEnd index') := by
  rcases returns.lineEnd_cases level with eq | ⟨newline, -, eq⟩
  · rw [eq]
    exact returns.covers_move _
  · rw [eq]
    exact returns.covers_newline newline

end Lines

/-! ## Stretches of a line -/

section Stretches

variable {index index' start stop : Nat}

theorem move_add {count : Nat}
    (inLine : ∀ place, start ≤ place → place < start + count → source.masked[place]? ≠ some 10) :
    returns.move (start + count) = returns.move start + count :=
  carry_add fun place lower upper => by
    rw [returns.masked_getElem?]
    exact inLine place lower upper

theorem charsOf_masked_move
    (inLine : ∀ place, start ≤ place → place < stop → source.masked[place]? ≠ some 10) :
    charsOf returned.masked (returns.move start) (returns.move stop) =
      charsOf source.masked start stop := by
  simp only [← returns.masked_getElem?] at inLine
  rw [returns.reads.masked_eq, returns.reads'.masked_eq]
  exact charsOf_returned returns.masked_returned inLine

theorem charsOf_text_move
    (inLine : ∀ place, start ≤ place → place < stop → source.masked[place]? ≠ some 10) :
    charsOf returned.text (returns.move start) (returns.move stop) = charsOf source.text start stop := by
  have inLine (place : Nat) (lower : start ≤ place) (upper : place < stop) :
      (utf8 returns.text)[place]? ≠ some 10 := by
    rw [← List.getElem?_toArray, ← returns.reads.text_eq, Ne, returns.reads.newline_iff]
    exact inLine place lower upper
  rw [returns.reads.text_eq, returns.reads'.text_eq, returns.move_eq_carry_text,
    returns.move_eq_carry_text]
  exact charsOf_returned returns.text_returned inLine

/-- A stretch up to the end of its line, as the masked file with carriage returns has it. -/
theorem charsOf_masked_concat (le : start ≤ stop) (first : isBoundary source.masked start)
    (inLine : ∀ place, start ≤ place → place < stop → source.masked[place]? ≠ some 10)
    (newline : source.masked[stop]? = some 10)
    (blank : returned.masked[returns.move stop]? = some 32) :
    charsOf returned.masked (returns.move start) (returns.move stop + 1) =
      charsOf source.masked start stop ++ [' '] := by
  have last := (returns.reads.between_of_byte newline (by decide) (by decide)).1.masked
  simp only [← returns.masked_getElem?] at inLine
  rw [returns.reads.masked_eq] at first last ⊢
  rw [returns.reads'.masked_eq, List.getElem?_toArray] at blank
  rw [returns.reads'.masked_eq]
  exact charsOf_returned_concat returns.masked_returned inLine le (by decide) first last blank

theorem exists_charsOf_text_concat (le : start ≤ stop) (first : isBoundary source.text start)
    (inLine : ∀ place, start ≤ place → place < stop → source.masked[place]? ≠ some 10)
    (newline : source.masked[stop]? = some 10) :
    ∃ c, (c = '\r' ∨ c = ' ') ∧ charsOf returned.text (returns.move start) (returns.move stop + 1) =
      charsOf source.text start stop ++ [c] := by
  have last := (returns.reads.between_of_byte newline (by decide) (by decide)).1.text
  obtain ⟨⟨b, kind, put⟩, -⟩ := returns.text_newline newline
  have inLine (place : Nat) (lower : start ≤ place) (upper : place < stop) :
      (utf8 returns.text)[place]? ≠ some 10 := by
    rw [← List.getElem?_toArray, ← returns.reads.text_eq, Ne, returns.reads.newline_iff]
    exact inLine place lower upper
  rw [returns.reads.text_eq] at first last ⊢
  rw [returns.reads'.text_eq, returns.move_eq_carry_text, List.getElem?_toArray] at put
  rw [returns.reads'.text_eq, returns.move_eq_carry_text, returns.move_eq_carry_text]
  rcases kind with rfl | rfl
  · exact ⟨'\r', .inl rfl,
      charsOf_returned_concat returns.text_returned inLine le (by decide) first last put⟩
  · exact ⟨' ', .inr rfl,
      charsOf_returned_concat returns.text_returned inLine le (by decide) first last put⟩

end Stretches

/-! ## The text of a line -/

/-- A place on a line keeps its distance from places before it. -/
theorem move_lineStart_add {index distance : Nat}
    (inLine : source.lineStart index + distance ≤ source.lineEnd index) :
    returns.move (source.lineStart index + distance) = returns.move (source.lineStart index) + distance :=
  returns.move_add fun place lower upper => returns.reads.ne_newline lower (by omega)

section Texts

variable {index index' : Nat} (level : returned.lineOf index' = source.lineOf index)

include returns level

/-- A line of the masked text stays as it is, but for a blank at its end. -/
theorem maskedLine_padded :
    Header.Padded (source.maskedLine index) (returned.maskedLine index') := by
  have inLine (place : Nat) (lower : source.lineStart index ≤ place) :=
    returns.reads.ne_newline lower
  rw [maskedLine, maskedLine, returns.lineStart_eq level]
  rcases returns.lineEnd_cases level with eq | ⟨newline, blank, eq⟩
  · rw [eq]
    exact .inl (returns.charsOf_masked_move inLine)
  · rw [eq]
    exact .inr (returns.charsOf_masked_concat (returns.reads.lineStart_le_lineEnd index)
      (returns.reads.between_lineStart index).masked inLine newline blank)

/-- The same lines open comments. -/
theorem opensComment_rawLine : Header.opensComment (returned.rawLine index') =
    Header.opensComment (source.rawLine index) := by
  have inLine (place : Nat) (lower : source.lineStart index ≤ place) :=
    returns.reads.ne_newline lower
  rw [rawLine, rawLine, returns.lineStart_eq level]
  rcases returns.lineEnd_cases level with eq | ⟨newline, -, eq⟩
  · rw [eq, returns.charsOf_text_move inLine]
  · obtain ⟨c, kind, same⟩ := returns.exists_charsOf_text_concat
      (returns.reads.lineStart_le_lineEnd index) (returns.reads.between_lineStart index).text inLine newline
    rw [eq, same]
    rcases kind with rfl | rfl
    · exact Header.opensComment_concat (by decide) (by decide) _
    · exact Header.opensComment_concat (by decide) (by decide) _

theorem allBlank_maskedLine : allBlank (returned.maskedLine index') = allBlank (source.maskedLine index) :=
  (returns.maskedLine_padded level).eq_of Header.allBlank_trailing

/-- A line with code has the same indentation. -/
theorem indent_eq {c : Char} (member : c ∈ source.maskedLine index) (code : isIndent c = false) :
    returned.indent index' = source.indent index := by
  rw [indent, indent, (returns.maskedLine_padded level).takeWhile_eq member code]

/-- The code of a line begins at the same byte. -/
theorem indent_covers : returns.Covers (source.lineStart index + source.indent index)
    (returned.lineStart index' + returned.indent index') := by
  have padded := returns.maskedLine_padded level
  by_cases blank : ∀ c ∈ source.maskedLine index, isIndent c = true
  · have blank' : ∀ c ∈ returned.maskedLine index', isIndent c = true := by
      rcases padded with same | same
      · rwa [same]
      · rw [same]
        exact List.forall_mem_append.2 ⟨blank, List.forall_mem_singleton.2 rfl⟩
    rw [returns.reads.indent_of_indents blank, returns.reads'.indent_of_indents blank']
    exact returns.lineEnd_covers level
  · push Not at blank
    obtain ⟨c, member, code⟩ := blank
    rw [returns.indent_eq level member (Bool.eq_false_iff.2 code), returns.lineStart_eq level,
      ← returns.move_lineStart_add (returns.reads.between_indent index).2]
    exact returns.covers_move _

end Texts

end Returning
end Source
end DebugBridge
