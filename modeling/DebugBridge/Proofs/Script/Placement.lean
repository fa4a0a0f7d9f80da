import DebugBridge.Proofs.Script.Nesting

/-!
# Places in a text

The location of a node is told by the text alone: it is a stretch of the text, its positions are the
lines and columns of the first and the last byte of the stretch, and the line of an opening brace is
that of a brace in the stretch.
-/

namespace DebugBridge

open Text

/-! ## Lines and columns -/

/-- The line and the column of a byte, both counted from one.  A line ends with its line break. -/
def Position.ofByte (bytes : List UInt8) (index : Nat) : Position where
  line := (bytes.take index).count 10 + 1
  column := ((bytes.take index).reverse.takeWhile (· != 10)).length + 1

/-- A later byte stands on the same line or on a later one. -/
theorem Position.line_le {bytes : List UInt8} {index later : Nat} (le : index ≤ later) :
    (Position.ofByte bytes index).line ≤ (Position.ofByte bytes later).line :=
  Nat.succ_le_succ ((List.take_sublist_take_left le).count_le 10)

/-- Whether the location of something of a given kind is one of a script with a given text. -/
structure Location.LiesIn (path : String) (text : List Char) (kind : Kind) (location : Location) :
    Prop where
  file : location.file = path
  slice : ∃ before after, text = before ++ location.text.toList ++ after ∧
    byteLength before = location.start ∧ byteLength (before ++ location.text.toList) = location.stop
  first : location.first = .ofByte (utf8 text) location.start
  last : location.start < location.stop → location.last = .ofByte (utf8 text) (location.stop - 1)
  brace : ∀ line ∈ kind.braceLine?, ∃ brace, (utf8 text)[brace]? = some 123 ∧
    location.start ≤ brace ∧ brace < location.stop ∧ line = (Position.ofByte (utf8 text) brace).line

/-- An opening brace stands on one of the lines of its declaration. -/
theorem Location.LiesIn.lines {path : String} {text : List Char} {kind : Kind}
    {location : Location} (lies : location.LiesIn path text kind) {line : Nat}
    (lined : line ∈ kind.braceLine?) : location.start < location.stop ∧
      location.first.line ≤ line ∧ line ≤ location.last.line := by
  obtain ⟨brace, -, after, before, rfl⟩ := lies.brace line lined
  have nonempty : location.start < location.stop := Nat.lt_of_le_of_lt after before
  rw [lies.first, lies.last nonempty]
  exact ⟨nonempty, Position.line_le after, Position.line_le (Nat.le_sub_one_of_lt before)⟩

namespace Source

open Mask

/-! ## Positions by the line table -/

theorem countP_breaksFrom (place length : Nat) (bytes : List UInt8) :
    (breaksFrom place bytes).countP (fun start => start ≤ place + length) =
      (bytes.take length).count 10 := by
  induction bytes generalizing place length with
  | nil => simp [breaksFrom]
  | cons b rest ih =>
      cases length with
      | zero =>
          rw [List.take_zero, List.count_nil, List.countP_eq_zero]
          intro start member
          obtain ⟨index, -, rfl⟩ := mem_breaksFrom.1 member
          rw [decide_eq_true_eq]
          omega
      | succ length =>
          have tail := ih (place + 1) length
          rw [Nat.add_right_comm, Nat.add_assoc] at tail
          rw [breaksFrom, List.take_succ_cons]
          split
          next newline =>
            rw [List.countP_cons_of_pos (by simp), tail, beq_iff_eq.1 newline, List.count_cons_self]
          next other => rw [tail, List.count_cons_of_ne (by simpa using other)]

section Reading

variable {source : Source} {text masked : List Char} (reads : source.Reads text masked)

include reads

/-- The line of an offset is told by the line breaks before it. -/
theorem lineOf_eq_count (index : Nat) :
    source.lineOf index = ((utf8 text).take index).count 10 := by
  obtain ⟨earlier, start, later, onLine⟩ := reads.exists_onLine index
  have starts : earlier ++ [start] ++ later = 0 :: breaksFrom 0 (utf8 text) := by
    rw [List.append_assoc, List.singleton_append]
    exact List.toArray_inj (onLine.starts.symm.trans reads.lineStarts_eq)
  have counted := congrArg (List.countP fun start => start ≤ 0 + index) starts
  have before : (earlier ++ [start]).countP (fun start => start ≤ 0 + index) = earlier.length + 1 := by
    rw [List.countP_eq_length.2, List.length_append, List.length_singleton]
    intro other member
    have none := onLine.not_lt_of_mem reads member
    rw [decide_eq_false_iff_not] at none
    rw [decide_eq_true_eq]
    omega
  have after : later.countP (fun start => start ≤ 0 + index) = 0 := by
    rw [List.countP_eq_zero]
    intro other member
    have := onLine.upper other member
    rw [decide_eq_true_eq]
    omega
  rw [List.countP_append, before, after, List.countP_cons_of_pos (by simp), countP_breaksFrom]
    at counted
  rw [onLine.lineOf_eq reads]
  omega

/-- Between the start of its line and an offset there is no line break. -/
theorem not_newline {index place : Nat} (after : source.lineStart index ≤ place)
    (before : place < index) : (utf8 text)[place]? ≠ some 10 := by
  intro newline
  rw [← List.getElem?_toArray, ← reads.text_eq, reads.newline_iff] at newline
  obtain ⟨earlier, start, later, onLine⟩ := reads.exists_onLine index
  rw [onLine.lineStart_eq reads] at after
  have member : place + 1 ∈ source.lineStarts := reads.mem_lineStarts.2 (.inr ⟨place, newline, rfl⟩)
  rw [onLine.starts, List.mem_toArray] at member
  rcases List.mem_append.1 member with member | member
  · have := onLine.lt_of_mem_earlier reads member
    omega
  · rcases List.mem_cons.1 member with rfl | member
    · omega
    · have := onLine.upper _ member
      omega

/-- The column of an offset is told by what stands before it back to a line break. -/
theorem sub_lineStart_eq_length {index : Nat} (inside : index ≤ source.size) :
    index - source.lineStart index =
      (((utf8 text).take index).reverse.takeWhile (· != 10)).length := by
  have le := reads.lineStart_le index
  have size : (utf8 text).length = source.size := by
    rw [← reads.text_size_eq, reads.text_eq, List.size_toArray]
  -- What stands before the offset: the lines before its line, and the part of the line before it.
  have split : (utf8 text).take index = (utf8 text).take (source.lineStart index) ++
      ((utf8 text).drop (source.lineStart index)).take (index - source.lineStart index) := by
    rw [← List.take_add, Nat.add_sub_cancel' le]
  have line : ∀ b ∈ (((utf8 text).drop (source.lineStart index)).take
      (index - source.lineStart index)).reverse, (b != 10) = true := by
    intro b member
    obtain ⟨place, short, byte⟩ := List.getElem_of_mem (List.mem_reverse.1 member)
    rw [bne_iff_ne]
    rintro rfl
    rw [List.length_take] at short
    refine not_newline reads (Nat.le_add_right (source.lineStart index) place) (by omega) ?_
    rw [← List.getElem?_drop, ← List.getElem?_take_of_lt (Nat.lt_of_lt_of_le short (Nat.min_le_left _ _)),
      ← byte]
    exact List.getElem?_eq_getElem _
  have earlier : (((utf8 text).take (source.lineStart index)).reverse).takeWhile (· != 10) = [] := by
    rcases reads.mem_lineStarts.1 (reads.lineStart_mem index) with start | ⟨place, newline, start⟩
    · rw [start]
      rfl
    · rw [← reads.newline_iff, reads.text_eq, List.getElem?_toArray] at newline
      obtain ⟨short, byte⟩ := List.getElem?_eq_some_iff.1 newline
      rw [start, List.take_succ_eq_append_getElem short, byte, List.reverse_append]
      rfl
  rw [split, List.reverse_append, List.takeWhile_append_of_pos line, earlier, List.append_nil,
    List.length_reverse, List.length_take, List.length_drop]
  omega

/-- The position of an offset of a file is that of the byte at the offset. -/
theorem position_eq_ofByte {index : Nat} (inside : index ≤ source.size) :
    source.position index = .ofByte (utf8 text) index := by
  rw [position, Position.ofByte, lineOf_eq_count reads, sub_lineStart_eq_length reads inside]

/-! ## Locations -/

/-- A character other than a space in the masked text stands in the text, too. -/
theorem exists_visible {front back : List Char} {c : Char} (hidden : masked = front ++ c :: back)
    (visible : c ≠ ' ') :
    ∃ before after, text = before ++ c :: after ∧ byteLength before = byteLength front := by
  have masks := reads.masks
  rw [hidden] at masks
  obtain ⟨before, after, rfl, first, rest⟩ := masks.split_visible (.inr (by simpa using visible))
  generalize whole : c :: back = tail at rest
  cases rest with
  | nil => cases whole
  | keep _ later =>
      cases whole
      exact ⟨before, _, rfl, first.byteLength_eq.symm⟩
  | @blank other inLine _ _ later =>
      obtain ⟨more, size⟩ := Nat.exists_eq_succ_of_ne_zero (Nat.ne_of_gt other.utf8Size_pos)
      rw [size, List.replicate_succ] at whole
      exact absurd (List.cons.inj whole).1 visible

/-- An opening brace of the masked text is one of the text. -/
theorem getElem?_text_brace {brace : Nat} (byte : source.masked[brace]? = some 123) :
    (utf8 text)[brace]? = some 123 := by
  rw [reads.masked_eq, List.getElem?_toArray] at byte
  obtain ⟨front, c, back, hidden, rfl, code⟩ := exists_split_of_byte byte (by decide)
  obtain rfl : c = '{' := Char.ext (UInt32.toNat_inj.1 code)
  obtain ⟨before, after, rfl, place⟩ := exists_visible reads hidden (by decide)
  rw [← place]
  exact getElem?_utf8_ascii (by decide)

/-- What a location says holds of the text of its file. -/
theorem liesIn_of_location? {start stop : Nat} {kind : Kind} {location : Location}
    (located : source.location? start stop = some location)
    (braced : ∀ line ∈ kind.braceLine?, ∃ brace, source.masked[brace]? = some 123 ∧
      location.start ≤ brace ∧ brace < location.stop ∧ line = source.lineOf brace + 1) :
    location.LiesIn source.path text kind := by
  obtain ⟨ordered, inside⟩ := location_range reads located
  obtain ⟨start_eq, stop_eq, first, last, -⟩ := location?_spec located
  simp only [location?, Option.pure_def, Option.bind_eq_bind, Option.bind_eq_some_iff,
    Option.some.injEq] at located
  obtain ⟨part, cut, made⟩ := located
  obtain ⟨le, begins, ends, chars⟩ := cut?_spec cut
  rw [← stop_eq] at le ends chars
  rw [reads.text_eq] at begins ends chars
  obtain ⟨before, part, after, plain, front, back, same⟩ := exists_part le begins ends
  obtain rfl := chars.trans same
  have text_eq : location.text.toList = part := by
    rw [← made]
    exact String.toList_ofList
  refine ⟨made ▸ rfl, ⟨before, after, ?_, ?_, ?_⟩, ?_, fun nonempty => ?_, fun line lined => ?_⟩
  · rw [text_eq, plain]
  · rw [front, start_eq]
  · rw [text_eq, byteLength_append, back]
  · rw [first, ← start_eq, position_eq_ofByte reads (Nat.le_trans ordered inside)]
  · rw [last, Nat.max_eq_left (by omega), position_eq_ofByte reads (by omega)]
  · obtain ⟨brace, byte, low, high, rfl⟩ := braced line lined
    refine ⟨brace, getElem?_text_brace reads byte, low, high, ?_⟩
    rw [Position.ofByte, lineOf_eq_count reads]

/-- A declaration with a block lies in the text, and so does its brace. -/
theorem liesIn_of_block {start brace margin : Nat} {kind : Kind} {location : Location}
    (lined : kind.braceLine? = some (source.lineOf brace + 1))
    (byte : source.masked[brace]? = some 123) (first : start ≤ brace)
    (located : source.location? start (source.blockEnd brace margin) = some location) :
    location.LiesIn source.path text kind := by
  refine liesIn_of_location? reads located fun line lined' => ?_
  obtain ⟨start_eq, stop_eq⟩ := location_of_block byte first located
  obtain rfl := Option.some.inj (lined.symm.trans lined')
  refine ⟨brace, byte, start_eq ▸ first, ?_, rfl⟩
  rw [stop_eq]
  exact lt_blockEnd (Nat.le_refl _) (Array.getElem?_eq_some_iff.1 byte).1

/-- What opens at a place lies in the text. -/
theorem Opens.liesIn {pos limit next : Nat} {segment : List Char} {opener : Opener}
    {accessors : List Opener} (opens : source.Opens pos limit segment opener accessors next) :
    opener.location.LiesIn source.path text opener.kind := by
  cases opens with
  | comment begins ends located => exact liesIn_of_location? reads located (by rintro _ ⟨⟩)
  | line begins code flat located | arrow flat first last further located =>
      exact liesIn_of_location? reads located (by rw [flat]; rintro _ ⟨⟩)
  | block lined byte first reached located | property lined byte first reached located =>
      exact liesIn_of_block reads lined byte first located

/-- An accessor lies in the text. -/
theorem AccessorAt.liesIn {start resume : Nat} {accessor : Opener}
    (found : source.AccessorAt start accessor resume) :
    accessor.location.LiesIn source.path text accessor.kind := by
  cases found with
  | arrow flat located => exact liesIn_of_location? reads located (by rw [flat]; rintro _ ⟨⟩)
  | block lined byte first reached located => exact liesIn_of_block reads lined byte first located

end Reading

end Source
end DebugBridge
