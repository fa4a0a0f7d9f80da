import DebugBridge.Proofs.Text.Utf8
import DebugBridge.Script.Outline
import Mathlib.Data.List.Basic

/-!
# A file as its lines

Where the masked text of a file is the text itself, the file is known from its lines.  An offset is
then a line with a part of it, and what the file says of an offset can be read off that line: its
number, where it starts and ends, its indentation, and any piece of it.
-/

namespace DebugBridge

namespace Text

/-- Lines, each with a line break after it. -/
def ended (lines : List (List Char)) : List Char := lines.flatMap fun line => line ++ ['\n']

/-- Lines, each with a line break before it. -/
def begun (lines : List (List Char)) : List Char := lines.flatMap fun line => '\n' :: line

/-- Lines with line breaks between them. -/
def joinLines : List (List Char) → List Char
  | [] => []
  | line :: rest => line ++ begun rest

theorem ended_append (lines rest : List (List Char)) :
    ended (lines ++ rest) = ended lines ++ ended rest := List.flatMap_append

theorem begun_append (lines rest : List (List Char)) :
    begun (lines ++ rest) = begun lines ++ begun rest := List.flatMap_append

theorem ended_cons (line : List Char) (rest : List (List Char)) :
    ended (line :: rest) = line ++ '\n' :: ended rest := by
  rw [ended, List.flatMap_cons, List.append_assoc, List.singleton_append, ← ended]

theorem begun_cons (line : List Char) (rest : List (List Char)) :
    begun (line :: rest) = '\n' :: line ++ begun rest := List.flatMap_cons

/-- A text of lines, taken apart at one of them. -/
theorem joinLines_split (earlier : List (List Char)) (line : List Char)
    (later : List (List Char)) :
    joinLines (earlier ++ line :: later) = ended earlier ++ line ++ begun later := by
  induction earlier with
  | nil => rfl
  | cons first earlier ih =>
      have rest : begun (earlier ++ line :: later) =
          '\n' :: joinLines (earlier ++ line :: later) := by
        cases earlier with
        | nil => exact begun_cons _ _
        | cons second others => exact begun_cons _ _
      rw [List.cons_append, joinLines, rest, ih, ended_cons]
      simp only [List.append_assoc, List.cons_append]

/-- A text of lines consists of line breaks and what is on the lines. -/
theorem mem_joinLines {lines : List (List Char)} {c : Char} (member : c ∈ joinLines lines) :
    c = '\n' ∨ ∃ line ∈ lines, c ∈ line := by
  cases lines with
  | nil => cases member
  | cons line rest =>
      rcases List.mem_append.1 member with here | later
      · exact .inr ⟨line, List.mem_cons_self, here⟩
      · obtain ⟨other, mem, inside⟩ := List.mem_flatMap.1 later
        rcases List.mem_cons.1 inside with rfl | inside
        · exact .inl rfl
        · exact .inr ⟨other, List.mem_cons_of_mem _ mem, inside⟩

end Text

namespace Source

open Text

/-- The offset of the line that follows given lines. -/
def offsetAfter (earlier : List (List Char)) : Nat := byteLength (ended earlier)

@[simp]
theorem offsetAfter_nil : offsetAfter [] = 0 := rfl

@[simp]
theorem offsetAfter_append (lines rest : List (List Char)) :
    offsetAfter (lines ++ rest) = offsetAfter lines + offsetAfter rest := by
  rw [offsetAfter, ended_append, byteLength_append, ← offsetAfter, ← offsetAfter]

@[simp]
theorem offsetAfter_cons (line : List Char) (rest : List (List Char)) :
    offsetAfter (line :: rest) = byteLength line + 1 + offsetAfter rest := by
  rw [offsetAfter, ended_cons, byteLength_append, byteLength_cons, ← offsetAfter, Nat.add_assoc]
  rfl

/-- A line break separates a line from the next one. -/
theorem offsetAfter_concat (earlier : List (List Char)) (line : List Char) :
    offsetAfter (earlier ++ [line]) = offsetAfter earlier + byteLength line + 1 := by
  rw [offsetAfter_append, offsetAfter_cons, offsetAfter_nil, Nat.add_zero, Nat.add_assoc]

/-- The offsets at which lines start, the first of them at `start`. -/
def startsFrom (start : Nat) : List (List Char) → List Nat
  | [] => []
  | line :: rest => start :: startsFrom (start + byteLength line + 1) rest

theorem startsFrom_append (start : Nat) (lines rest : List (List Char)) :
    startsFrom start (lines ++ rest) =
      startsFrom start lines ++ startsFrom (start + offsetAfter lines) rest := by
  induction lines generalizing start with
  | nil => rfl
  | cons line lines ih =>
      rw [List.cons_append, startsFrom, ih, startsFrom, List.cons_append, offsetAfter_cons]
      congr 3
      omega

@[simp]
theorem length_startsFrom (start : Nat) (lines : List (List Char)) :
    (startsFrom start lines).length = lines.length := by
  induction lines generalizing start with
  | nil => rfl
  | cons line lines ih => rw [startsFrom, List.length_cons, ih, List.length_cons]

/-- Where a line starts, the lines before it end. -/
theorem exists_of_mem_startsFrom {start index : Nat} {lines : List (List Char)}
    (member : index ∈ startsFrom start lines) :
    ∃ before line after, lines = before ++ line :: after ∧ index = start + offsetAfter before := by
  induction lines generalizing start with
  | nil => cases member
  | cons line lines ih =>
      rcases List.mem_cons.1 member with rfl | later
      · exact ⟨[], line, lines, rfl, rfl⟩
      · obtain ⟨before, other, after, rfl, rfl⟩ := ih later
        exact ⟨line :: before, other, after, rfl, by rw [offsetAfter_cons]; omega⟩

/-- Lines start before the place where the line after them would. -/
theorem lt_of_mem_startsFrom {start index : Nat} {lines : List (List Char)}
    (member : index ∈ startsFrom start lines) : index < start + offsetAfter lines := by
  obtain ⟨before, line, after, rfl, rfl⟩ := exists_of_mem_startsFrom member
  rw [offsetAfter_append, offsetAfter_cons]
  omega

/-- Whether a line holds neither line breaks nor carriage returns. -/
def IsLine (line : List Char) : Prop := ∀ c ∈ line, c ≠ '\n' ∧ c ≠ '\r'

/-- The bytes of a line break off no line. -/
theorem breaksFrom_append_of_isLine {line : List Char} (isLine : IsLine line) (start : Nat)
    (bytes : List UInt8) :
    breaksFrom start (utf8 line ++ bytes) = breaksFrom (start + byteLength line) bytes := by
  have skip (word rest : List UInt8) (start : Nat) (other : ∀ b ∈ word, b ≠ 10) :
      breaksFrom start (word ++ rest) = breaksFrom (start + word.length) rest := by
    induction word generalizing start with
    | nil => rfl
    | cons b word ih =>
        rw [List.forall_mem_cons] at other
        rw [List.cons_append, breaksFrom, if_neg (mt beq_iff_eq.1 other.1), ih _ other.2,
          List.length_cons, Nat.add_assoc, Nat.add_comm 1]
  rw [← length_utf8]
  refine skip _ bytes start fun b member => ?_
  rintro rfl
  exact (isLine _ (mem_of_mem_utf8 (c := '\n') (by decide) member)).1 rfl

/-- The starts of lines are where the line breaks say. -/
theorem breaksFrom_utf8_begun (start : Nat) {lines : List (List Char)}
    (areLines : ∀ line ∈ lines, IsLine line) :
    breaksFrom start (utf8 (begun lines)) = startsFrom (start + 1) lines := by
  induction lines generalizing start with
  | nil => rfl
  | cons line lines ih =>
      rw [List.forall_mem_cons] at areLines
      have newline : String.utf8EncodeChar '\n' = [10] := by decide
      rw [begun_cons, utf8_append, utf8_cons, newline, List.append_assoc, List.singleton_append,
        breaksFrom, if_pos (beq_self_eq_true 10), breaksFrom_append_of_isLine areLines.1,
        ih _ areLines.2, startsFrom]

/-- A file that is known from its lines. -/
structure Consists (source : Source) (lines : List (List Char)) : Prop where
  text_eq : source.text = (utf8 (joinLines lines)).toArray
  masked_eq : source.masked = (utf8 (joinLines lines)).toArray
  lineStarts_eq : source.lineStarts = (startsFrom 0 lines).toArray
  isLine : ∀ line ∈ lines, IsLine line

theorem consists_ofText {version : Version} (path : String) {lines : List (List Char)}
    (nonempty : lines ≠ []) (isLine : ∀ line ∈ lines, IsLine line)
    (unmasked : maskSource version (joinLines lines) = joinLines lines) :
    (ofText version path (joinLines lines)).Consists lines := by
  refine ⟨rfl, congrArg (fun text => (utf8 text).toArray) unmasked, ?_, isLine⟩
  cases lines with
  | nil => exact absurd rfl nonempty
  | cons line rest =>
      rw [List.forall_mem_cons] at isLine
      rw [ofText, joinLines, utf8_append, breaksFrom_append_of_isLine isLine.1,
        breaksFrom_utf8_begun _ isLine.2, startsFrom]

section Bytes

variable (before part after : List Char)

/-- The bytes of a part of a text. -/
theorem extract_utf8 :
    (utf8 (before ++ part ++ after)).toArray.extract (byteLength before)
      (byteLength before + byteLength part) = (utf8 part).toArray := by
  simp only [utf8_append, List.extract_toArray, List.extract_eq_take_drop, Nat.add_sub_cancel_left,
    List.append_assoc]
  rw [List.drop_left' (length_utf8 before), List.take_left' (length_utf8 part)]

theorem charsOf_utf8 :
    charsOf (utf8 (before ++ part ++ after)).toArray (byteLength before)
      (byteLength before + byteLength part) = part := by
  rw [charsOf, extract_utf8, utf8Lossy_utf8]

/-- The characters of a text have places between them. -/
theorem isBoundary_utf8 : isBoundary (utf8 (before ++ after)).toArray (byteLength before) := by
  have place : (utf8 (before ++ after)).toArray[byteLength before]? = (utf8 after)[0]? := by
    rw [List.getElem?_toArray, utf8_append,
      List.getElem?_append_right (Nat.le_of_eq (length_utf8 before)),
      length_utf8, Nat.sub_self]
  rw [isBoundary, place]
  cases after with
  | nil =>
      show (byteLength before == (utf8 (before ++ [])).toArray.size) = true
      rw [List.append_nil, List.size_toArray, length_utf8]
      exact beq_self_eq_true _
  | cons c after =>
      obtain ⟨b, tail, encoded, head⟩ := utf8EncodeChar_head c
      simp only [utf8_cons, encoded, List.cons_append, List.getElem?_cons_zero, head,
        Bool.not_false]

theorem getElem?_utf8 {index : Nat} (inside : index < byteLength part) :
    (utf8 (before ++ part ++ after)).toArray[byteLength before + index]? = (utf8 part)[index]? := by
  rw [List.getElem?_toArray, utf8_append, utf8_append, List.append_assoc,
    List.getElem?_append_right (by rw [length_utf8]; omega), length_utf8, Nat.add_sub_cancel_left,
    List.getElem?_append_left (by rwa [length_utf8])]

end Bytes

/-- A line that ends in no carriage return ends before its line break or with the file. -/
theorem lineStop_eq {source : Source} {start stop : Nat} {next? : Option Nat}
    (ends : next? = some (stop + 1) ∨ next? = none ∧ source.size = stop)
    (noReturn : start < stop → source.byteAt (stop - 1) ≠ 13) :
    source.lineStop start next? = stop := by
  have keep : ¬ (decide (start < stop) && source.byteAt (stop - 1) == 13) = true := by
    rw [Bool.and_eq_true, decide_eq_true_eq, beq_iff_eq]
    exact fun ⟨nonempty, isReturn⟩ => noReturn nonempty isReturn
  rcases ends with rfl | ⟨rfl, rfl⟩
  · exact if_neg keep
  · exact if_neg keep

namespace Consists

variable {source : Source} {lines earlier later : List (List Char)} {line : List Char}

/-- The size of a file misses the line break that its last line does not have. -/
theorem size_succ (consists : source.Consists lines) (nonempty : lines ≠ []) :
    source.size + 1 = offsetAfter lines := by
  obtain ⟨earlier, line, rfl⟩ : ∃ earlier line, lines = earlier ++ [line] :=
    ⟨_, _, (List.dropLast_append_getLast nonempty).symm⟩
  rw [size, consists.masked_eq, List.size_toArray, length_utf8, joinLines_split,
    byteLength_append, byteLength_append, offsetAfter_concat]
  rfl

/-- Every line ends within the file. -/
theorem line_le_size (consists : source.Consists (earlier ++ line :: later)) :
    offsetAfter earlier + byteLength line ≤ source.size := by
  have size := consists.size_succ (by simp)
  rw [offsetAfter_append, offsetAfter_cons] at size
  omega

/-- A part of one line, as a part of the text. -/
theorem masked_split (consists : source.Consists (earlier ++ line :: later))
    (before part after : List Char) (split : line = before ++ part ++ after) :
    source.masked =
      (utf8 ((ended earlier ++ before) ++ part ++ (after ++ begun later))).toArray := by
  rw [consists.masked_eq, joinLines_split, split]
  simp only [List.append_assoc]

theorem text_eq_masked (consists : source.Consists lines) : source.text = source.masked := by
  rw [consists.text_eq, consists.masked_eq]

/-- The characters of a part of a line. -/
theorem charsOf_masked (consists : source.Consists (earlier ++ line :: later))
    (before part after : List Char) (split : line = before ++ part ++ after) :
    charsOf source.masked (offsetAfter earlier + byteLength before)
      (offsetAfter earlier + byteLength before + byteLength part) = part := by
  have chars := charsOf_utf8 (ended earlier ++ before) part (after ++ begun later)
  rwa [← consists.masked_split before part after split, byteLength_append] at chars

theorem isBoundary_masked (consists : source.Consists (earlier ++ line :: later))
    (before after : List Char) (split : line = before ++ after) :
    isBoundary source.masked (offsetAfter earlier + byteLength before) := by
  have boundary := isBoundary_utf8 (ended earlier ++ before) (after ++ begun later)
  have whole := consists.masked_split before [] after
    (by rw [split, List.append_nil])
  rw [List.append_nil] at whole
  rwa [← whole, byteLength_append] at boundary

section Place

variable {index : Nat} (consists : source.Consists (earlier ++ line :: later))
  (lower : offsetAfter earlier ≤ index) (upper : index ≤ offsetAfter earlier + byteLength line)

include consists in
/-- The lines of a file up to one of them, and those after it. -/
theorem lineStarts_split :
    source.lineStarts = (startsFrom 0 (earlier ++ [line]) ++
      startsFrom (offsetAfter earlier + byteLength line + 1) later).toArray := by
  rw [consists.lineStarts_eq, startsFrom_append, startsFrom_append]
  simp only [startsFrom, List.append_assoc, List.singleton_append, Nat.zero_add]

include lower in
theorem not_lt_of_mem {start : Nat} (member : start ∈ startsFrom 0 (earlier ++ [line])) :
    decide (index < start) = false := by
  rw [startsFrom_append, List.mem_append] at member
  rw [decide_eq_false_iff_not, Nat.not_lt]
  rcases member with before | here
  · have lt := lt_of_mem_startsFrom before
    omega
  · rw [List.mem_singleton.1 here]
    omega

include consists lower upper in
theorem find?_lineStarts : (source.lineStarts.find? fun start => index < start) =
    (startsFrom (offsetAfter earlier + byteLength line + 1) later).head? := by
  rw [consists.lineStarts_split, List.find?_toArray, List.find?_append,
    List.find?_eq_none.2 fun start member => by simp [not_lt_of_mem lower member], Option.none_or]
  cases later with
  | nil => rfl
  | cons next later =>
      rw [startsFrom, List.head?_cons, List.find?_cons_of_pos]
      rw [decide_eq_true_eq]
      omega

include consists lower upper in
/-- The number of a line is that of the lines before it. -/
theorem lineOf_eq : source.lineOf index = earlier.length := by
  have before : (startsFrom 0 (earlier ++ [line])).findIdx (fun start => index < start) =
      earlier.length + 1 := by
    rw [List.findIdx_eq_length.2 fun start member => not_lt_of_mem lower member,
      length_startsFrom, List.length_append, List.length_singleton]
  have after : (startsFrom (offsetAfter earlier + byteLength line + 1) later).findIdx
      (fun start => index < start) = 0 := by
    cases later with
    | nil => rfl
    | cons next later =>
        rw [startsFrom, List.findIdx_cons, decide_eq_true (by omega), cond_true]
  rw [lineOf, consists.lineStarts_split, List.findIdx_toArray, List.findIdx_append, before, after,
    length_startsFrom, List.length_append, List.length_singleton, if_neg (Nat.lt_irrefl _)]
  omega

include consists lower upper in
theorem lineStart_eq : source.lineStart index = offsetAfter earlier := by
  rw [lineStart, consists.lineOf_eq lower upper, consists.lineStarts_eq, startsFrom_append,
    startsFrom, Nat.zero_add]
  simp only [Array.getD_eq_getD_getElem?, List.getElem?_toArray]
  rw [List.getElem?_append_right (Nat.le_of_eq (length_startsFrom _ _)), length_startsFrom,
    Nat.sub_self, List.getElem?_cons_zero, Option.getD_some]

include consists lower upper in
/-- The next line starts after the line break, or where the file ends for want of one. -/
theorem nextLineStart_eq : source.nextLineStart index =
    min (offsetAfter (earlier ++ [line])) source.size := by
  have size := consists.size_succ (by simp)
  rw [nextLineStart, consists.find?_lineStarts lower upper]
  simp only [offsetAfter_append, offsetAfter_cons, offsetAfter_nil] at size ⊢
  cases later with
  | nil =>
      rw [startsFrom, List.head?_nil, Option.getD_none]
      rw [offsetAfter_nil] at size
      omega
  | cons next later =>
      rw [startsFrom, List.head?_cons, Option.getD_some]
      rw [offsetAfter_cons] at size
      omega

include consists in
/-- No carriage return stands at the end of a line. -/
theorem byteAt_pred_ne (nonempty : offsetAfter earlier < offsetAfter earlier + byteLength line) :
    source.byteAt (offsetAfter earlier + byteLength line - 1) ≠ 13 := by
  intro isReturn
  have last := getElem?_utf8 (ended earlier) line (begun later)
    (show byteLength line - 1 < byteLength line by omega)
  rw [← joinLines_split, ← consists.masked_eq] at last
  rw [byteAt, Array.getD_eq_getD_getElem?, Nat.add_sub_assoc (by omega), offsetAfter, last,
    List.getElem?_eq_getElem (by rw [length_utf8]; omega), Option.getD_some] at isReturn
  have member := mem_of_mem_utf8 (c := '\r') (by decide) (isReturn ▸ List.getElem_mem _)
  exact (consists.isLine line (by simp) '\r' member).2 rfl

include consists lower upper in
/-- A line ends where its text does. -/
theorem lineEnd_eq : source.lineEnd index = offsetAfter earlier + byteLength line := by
  have size := consists.size_succ (by simp)
  rw [lineEnd, consists.lineStart_eq lower upper, consists.find?_lineStarts lower upper]
  refine lineStop_eq ?_ consists.byteAt_pred_ne
  cases later with
  | nil =>
      simp only [offsetAfter_append, offsetAfter_cons, offsetAfter_nil] at size
      exact .inr ⟨rfl, by omega⟩
  | cons next later => exact .inl rfl

include consists lower upper in
theorem maskedLine_eq : source.maskedLine index = line := by
  have chars := consists.charsOf_masked [] line []
    (by rw [List.append_nil]; rfl)
  rw [byteLength_nil, Nat.add_zero] at chars
  rw [maskedLine, consists.lineStart_eq lower upper, consists.lineEnd_eq lower upper, chars]

include consists lower upper in
theorem rawLine_eq : source.rawLine index = line := by
  rw [rawLine, consists.text_eq_masked]
  exact consists.maskedLine_eq lower upper

include consists lower upper in
theorem indent_eq : source.indent index = (line.takeWhile isIndent).length := by
  rw [indent, consists.maskedLine_eq lower upper]

end Place

/-- Where some lines start, the numbers are those of the lines. -/
theorem lineOf_of_mem_startsFrom {start : Nat}
    (consists : source.Consists (earlier ++ (lines ++ later)))
    (member : start ∈ startsFrom (offsetAfter earlier) lines) :
    earlier.length ≤ source.lineOf start ∧
      source.lineOf start < earlier.length + lines.length := by
  obtain ⟨before, line, after, rfl, rfl⟩ := exists_of_mem_startsFrom member
  have atLine : source.Consists ((earlier ++ before) ++ line :: (after ++ later)) := by
    simpa using consists
  rw [← offsetAfter_append, atLine.lineOf_eq (Nat.le_refl _) (Nat.le_add_right _ _)]
  simp only [List.length_append, List.length_cons]
  omega

/-- The next line with code is the next one, if it has code. -/
theorem codeLineAfter?_eq {index : Nat} {next : List Char}
    (consists : source.Consists (earlier ++ line :: next :: later))
    (lower : offsetAfter earlier ≤ index) (upper : index ≤ offsetAfter earlier + byteLength line)
    (code : allBlank next = false) :
    source.codeLineAfter? index = some (offsetAfter (earlier ++ [line])) := by
  have start := offsetAfter_concat earlier line
  have atNext : source.Consists ((earlier ++ [line]) ++ next :: later) := by
    simpa using consists
  have masked : source.maskedLine (offsetAfter (earlier ++ [line])) = next :=
    atNext.maskedLine_eq (Nat.le_refl _) (Nat.le_add_right _ _)
  rw [codeLineAfter?, consists.lineStarts_split, List.find?_toArray, List.find?_append,
    List.find?_eq_none.2 fun start member => by simp [not_lt_of_mem lower member],
    Option.none_or, startsFrom, ← start, List.find?_cons_of_pos]
  rw [masked, code, Bool.not_false, Bool.and_true, decide_eq_true_eq, start]
  omega

section Part

variable (consists : source.Consists (earlier ++ line :: later)) (before part after : List Char)
  (split : line = before ++ part ++ after)

include consists split in
/-- What is left of a line up to some place. -/
theorem segment?_eq {limit : Nat} (stop : min (offsetAfter earlier + byteLength line) limit =
      offsetAfter earlier + byteLength before + byteLength part) :
    source.segment? (offsetAfter earlier + byteLength before) limit = some part := by
  have inside : byteLength before ≤ byteLength line := by
    rw [split, byteLength_append, byteLength_append]
    omega
  have starts := consists.isBoundary_masked before (part ++ after)
    (by rw [split, List.append_assoc])
  have stops := consists.isBoundary_masked (before ++ part) after split
  rw [byteLength_append, ← Nat.add_assoc] at stops
  rw [segment?, consists.lineEnd_eq (Nat.le_add_right _ _) (by omega), stop,
    Nat.max_eq_left (Nat.le_add_right _ _), cut?, starts, stops,
    decide_eq_true (Nat.le_add_right _ _), consists.charsOf_masked before part after split]
  rfl

include consists split in
/-- The bytes from a part of a line on begin with those of the part. -/
theorem exists_extract {limit : Nat}
    (stop : offsetAfter earlier + byteLength before + byteLength part ≤ limit) :
    ∃ rest, (source.masked.extract (offsetAfter earlier + byteLength before) limit).toList =
      utf8 part ++ rest := by
  have offset : offsetAfter earlier + byteLength before =
      (utf8 (ended earlier ++ before)).length := by
    rw [length_utf8, byteLength_append, offsetAfter]
  have room : (utf8 part).length ≤ limit - (offsetAfter earlier + byteLength before) := by
    rw [length_utf8]
    omega
  refine ⟨(utf8 (after ++ begun later)).take
    (limit - (offsetAfter earlier + byteLength before) - (utf8 part).length), ?_⟩
  rw [consists.masked_split before part after split, List.extract_toArray, List.toList_toArray,
    List.extract_eq_take_drop, utf8_append, utf8_append, List.append_assoc,
    List.drop_left' offset.symm, List.take_append, List.take_of_length_le room]

end Part

/-- The byte of an ASCII character. -/
theorem byteAt_eq (consists : source.Consists (earlier ++ line :: later)) {before after : List Char}
    {c : Char} (split : line = before ++ c :: after) (ascii : c.toNat ≤ 0x7F) :
    source.byteAt (offsetAfter earlier + byteLength before) = UInt8.ofNat c.toNat := by
  have bytes : utf8 [c] = [UInt8.ofNat c.toNat] := utf8_of_le (by simpa using ascii)
  have place := getElem?_utf8 (ended earlier ++ before) [c] (after ++ begun later)
    (show 0 < byteLength [c] by simpa using c.utf8Size_pos)
  rw [← consists.masked_split before [c] after
    (by rw [split, List.append_assoc, List.singleton_append]), byteLength_append, Nat.add_zero,
    bytes, List.getElem?_cons_zero] at place
  rw [byteAt, Array.getD_eq_getD_getElem?, offsetAfter, place, Option.getD_some]

/-- A stretch between places that characters begin or end at has a location. -/
theorem exists_location (consists : source.Consists lines) {start stop : Nat}
    (starts : isBoundary source.masked start) (stops : isBoundary source.masked stop)
    (lt : start < stop) (le : stop ≤ source.size) :
    ∃ location, source.location? start stop = some location ∧
      location.first.line = source.lineOf start + 1 ∧
      location.last.line = source.lineOf (stop - 1) + 1 := by
  have clamped : max (min stop source.size) start = stop := by omega
  have last : max (stop - 1) start = stop - 1 := by omega
  let text := String.ofList (charsOf source.masked start stop)
  refine ⟨⟨source.path, start, stop, source.position start, source.position (stop - 1), text⟩,
    ?_, rfl, rfl⟩
  simp only [location?, clamped, last, consists.text_eq_masked, cut?, starts, stops,
    decide_eq_true (Nat.le_of_lt lt), Bool.and_self, if_true]
  rfl

end Consists

end Source
end DebugBridge
