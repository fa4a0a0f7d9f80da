import DebugBridge.Proofs.Script.Insertion
import DebugBridge.Proofs.Script.Nesting

/-!
# Searches across an insertion

What the scanner looks for from a place on, the next line with code, the end of a block, a closing
parenthesis or the end of a comment, it finds at the place where that has moved: blank lines hold
none of it.
-/

namespace DebugBridge
namespace Source

open Text Mask

variable {source : Source}

/-! ## Stretches of bytes -/

theorem drop_of_getElem? {bytes : Array UInt8} {index : Nat} {b : UInt8}
    (byte : bytes[index]? = some b) :
    bytes.toList.drop index = b :: bytes.toList.drop (index + 1) := by
  obtain ⟨inside, eq⟩ := Array.getElem?_eq_some_iff.1 byte
  rw [List.drop_eq_getElem_cons (by simpa using inside), Array.getElem_toList, eq]

/-- The bytes of a stretch, taken apart. -/
theorem extract_eq_cons {bytes : Array UInt8} {index limit : Nat} {b : UInt8}
    (byte : bytes[index]? = some b) (inside : index < limit) :
    (bytes.extract index limit).toList = b :: (bytes.extract (index + 1) limit).toList := by
  rw [Array.toList_extract, Array.toList_extract, List.extract_eq_take_drop,
    List.extract_eq_take_drop, drop_of_getElem? byte, show limit - index = limit - (index + 1) + 1 by omega,
    List.take_succ_cons]

theorem extract_eq_nil {bytes : Array UInt8} {index limit : Nat} (outside : limit ≤ index) :
    (bytes.extract index limit).toList = [] := by
  rw [Array.toList_extract, List.extract_eq_take_drop, Nat.sub_eq_zero_of_le outside, List.take_zero]

theorem extract_eq_nil_of_none {bytes : Array UInt8} {index limit : Nat}
    (none : bytes[index]? = Option.none) : (bytes.extract index limit).toList = [] := by
  rw [Array.getElem?_eq_none_iff] at none
  rw [Array.toList_extract, List.extract_eq_take_drop, List.drop_eq_nil_of_le (by simpa using none),
    List.take_nil]

/-! ## Ends of blocks and of comments -/

/-- Whether a line after an opening brace is led by a closing one that is indented by at most `margin`. -/
def closesAt (source : Source) (brace margin start : Nat) : Bool := brace < start &&
  (source.byteAt (start + source.indent start) == 125 &&
    source.indent (start + source.indent start) ≤ margin)

theorem byte_of_closesAt {brace margin start : Nat} (closes : source.closesAt brace margin start) :
    source.masked[start + source.indent start]? = some 125 := by
  rw [closesAt, Bool.and_eq_true, Bool.and_eq_true, beq_iff_eq] at closes
  exact getElem?_of_byteAt closes.2.1 (by decide)

/-- The first closing brace after an opening one that leads its line and is indented by at most
`margin`. -/
def leadingBrace? (source : Source) (brace margin : Nat) : Option Nat :=
  (source.lineStarts.find? fun start => brace < start &&
    (source.byteAt (start + source.indent start) == 125 &&
      source.indent (start + source.indent start) ≤ margin)).map
    fun start => start + source.indent start

theorem blockEnd_eq (source : Source) (brace margin : Nat) : source.blockEnd brace margin =
    match source.closingFrom (source.lineOf brace) margin 0 none brace
      (source.masked.toList.drop brace) with
    | .inl stop => stop
    | .inr settled =>
      (((source.leadingBrace? brace margin).map (· + 1)).or settled).getD source.size := by
  rw [blockEnd, toList_extract_size]
  dsimp only
  cases source.closingFrom (source.lineOf brace) margin 0 none brace
    (source.masked.toList.drop brace) with
  | inl stop => rfl
  | inr settled =>
    simp only [Array.find?_map, Array.find?_filter, leadingBrace?, Function.comp_apply,
      Bool.decide_and, Bool.decide_eq_true, Option.orElse_eq_orElse, Option.orElse_eq_or]

theorem leadingBrace?_eq (source : Source) (brace margin : Nat) : source.leadingBrace? brace margin =
    (source.lineStarts.find? (source.closesAt brace margin)).map
      fun start => start + source.indent start := rfl

theorem leadingBrace?_spec {brace margin place : Nat}
    (found : source.leadingBrace? brace margin = some place) : source.masked[place]? = some 125 := by
  obtain ⟨start, line, rfl⟩ := Option.map_eq_some_iff.1 found
  exact byte_of_closesAt (Array.find?_some line)

theorem byte_of_braceAfter? {index brace : Nat} {sameLine : Option Nat}
    (same : ∀ offset, sameLine = some offset → source.masked[offset]? = some 123)
    (found : source.braceAfter? index sameLine = some brace) : source.masked[brace]? = some 123 := by
  cases sameLine with
  | some offset =>
      cases found
      exact same _ rfl
  | none =>
      obtain ⟨start, -, -, byte⟩ := braceAfter?_none found
      exact byte

section Moves

variable {other : Source} {move : Nat → Nat} {margin depth index brace : Nat}

/-- A step of following braces is the same where its byte has moved, if what follows is. -/
theorem closingFrom_cons_map {braceLine braceLine' : Nat} {settled : Option Nat} {b : UInt8}
    {rest rest' : List UInt8}
    (further : ∀ depth settled,
      other.closingFrom braceLine' margin depth (settled.map move) (move index + 1) rest' =
        Sum.map move (Option.map move)
          (source.closingFrom braceLine margin depth settled (index + 1) rest))
    (closes : b = 125 → move (index + 1) = move index + 1 ∧
      (other.lineOf (move index) == braceLine') = (source.lineOf index == braceLine) ∧
      other.leadsLine margin (move index) = source.leadsLine margin index) :
    other.closingFrom braceLine' margin depth (settled.map move) (move index) (b :: rest') =
      Sum.map move (Option.map move)
        (source.closingFrom braceLine margin depth settled index (b :: rest)) := by
  unfold closingFrom
  split
  · exact further _ _
  · split
    next closing =>
      rw [Bool.and_eq_true, beq_iff_eq] at closing
      obtain ⟨next, sameLine, leads⟩ := closes closing.1
      rw [sameLine, leads]
      split
      · rw [← next]
        rfl
      · rw [← further, ← next]
        cases settled <;> rfl
    next =>
      split
      · exact further _ _
      · exact further _ _

theorem closingParen?_cons_map {b : UInt8} {rest rest' : List UInt8}
    (further : ∀ depth,
      closingParen? depth (move index + 1) rest' = (closingParen? depth (index + 1) rest).map move) :
    closingParen? depth (move index) (b :: rest') = (closingParen? depth index (b :: rest)).map move := by
  unfold closingParen?
  split
  · exact further _
  · split
    · split
      · rfl
      · exact further _
    · exact further _

/-- A closing brace moves with its line, and the lines that one leads are the same. -/
theorem leadingBrace?_map
    (lines : other.lineStarts.find? (other.closesAt (move brace) margin) =
      (source.lineStarts.find? (source.closesAt brace margin)).map move)
    (places : ∀ start ∈ source.lineStarts, source.closesAt brace margin start →
      move start + other.indent (move start) = move (start + source.indent start)) :
    other.leadingBrace? (move brace) margin = (source.leadingBrace? brace margin).map move := by
  rw [leadingBrace?_eq, leadingBrace?_eq, lines]
  cases found : source.lineStarts.find? (source.closesAt brace margin) with
  | none => rfl
  | some start =>
      exact congrArg some (places start (Array.mem_of_find?_eq_some found) (Array.find?_some found))

/-- A block ends where its end has moved, if both searches for a closing brace move along. -/
theorem blockEnd_map
    (following : other.closingFrom (other.lineOf (move brace)) margin 0 none (move brace)
        (other.masked.toList.drop (move brace)) =
      Sum.map move (Option.map move) (source.closingFrom (source.lineOf brace) margin 0 none brace
        (source.masked.toList.drop brace)))
    (leading : other.leadingBrace? (move brace) margin = (source.leadingBrace? brace margin).map move)
    (closes : ∀ place, source.masked[place]? = some 125 → move (place + 1) = move place + 1)
    (sizes : other.size = move source.size) :
    other.blockEnd (move brace) margin = move (source.blockEnd brace margin) := by
  rw [blockEnd_eq, blockEnd_eq, following, leading]
  cases source.closingFrom (source.lineOf brace) margin 0 none brace
    (source.masked.toList.drop brace) with
  | inl stop => rfl
  | inr settled =>
      cases found : source.leadingBrace? brace margin with
      | some place => exact (closes place (leadingBrace?_spec found)).symm
      | none =>
          cases settled with
          | some stop => rfl
          | none => exact sizes

end Moves

/-- The end of the first comment that ends after an offset. -/
def commentEnd? (source : Source) (start : Nat) : Option Nat :=
  commentEndFrom start (source.text.toList.drop start)

/-- Whether a comment ends with the character at an offset and the next one. -/
def EndsComment (source : Source) (index : Nat) : Prop :=
  source.text[index]? = some 42 ∧ source.text[index + 1]? = some 47

theorem commentEnd?_of_ends {index : Nat} (ends : source.EndsComment index) :
    source.commentEnd? index = some (index + 2) := by
  rw [commentEnd?, drop_of_getElem? ends.1, drop_of_getElem? ends.2]
  rfl

theorem commentEnd?_succ {index : Nat} (inside : index < source.text.size)
    (other : ¬ source.EndsComment index) : source.commentEnd? index = source.commentEnd? (index + 1) := by
  have byte := Array.getElem?_eq_getElem inside
  rw [commentEnd?, drop_of_getElem? byte, commentEndFrom]
  · rfl
  · intro rest star tail
    have slash := congrArg List.head? tail
    rw [List.head?_drop, Array.getElem?_toList] at slash
    exact other ⟨byte.trans (congrArg some star), slash⟩

theorem commentEnd?_of_size_le {index : Nat} (outside : source.text.size ≤ index) :
    source.commentEnd? index = none := by
  rw [commentEnd?, List.drop_eq_nil_of_le (by simpa using outside)]
  rfl

theorem commentEnd?_eq {start stop : Nat} (ends : source.EndsComment stop) (le : start ≤ stop)
    (clear : ∀ index, start ≤ index → index < stop → ¬ source.EndsComment index) :
    source.commentEnd? start = some (stop + 2) := by
  induction distance : stop - start generalizing start with
  | zero =>
      obtain rfl : start = stop := by omega
      exact commentEnd?_of_ends ends
  | succ distance ih =>
      have inside := (Array.getElem?_eq_some_iff.1 ends.1).1
      rw [commentEnd?_succ (by omega) (clear start (Nat.le_refl _) (by omega))]
      exact ih (by omega) (fun index lower => clear index (by omega)) (by omega)

/-- A comment that ends in a stretch of the text has its end there. -/
theorem infix_of_endsComment {before part after : List Char} {index : Nat}
    (text_eq : source.text = (utf8 (before ++ (part ++ after))).toArray)
    (ends : source.EndsComment index) (lower : byteLength before ≤ index)
    (upper : index + 1 < byteLength before + byteLength part) : ['*', '/'] <:+: part := by
  obtain ⟨offset, rfl⟩ := Nat.exists_eq_add_of_le lower
  obtain ⟨star, slash⟩ := ends
  rw [text_eq, List.getElem?_toArray, getElem?_utf8_part (by omega)] at star
  rw [text_eq, List.getElem?_toArray, Nat.add_assoc, getElem?_utf8_part (by omega)] at slash
  obtain ⟨front, c, back, rfl, rfl, code⟩ := exists_split_of_byte star (by decide)
  obtain rfl : c = '*' := Char.ext (UInt32.toNat_inj.1 code)
  have next : byteLength (front ++ ['*']) = byteLength front + 1 := by
    rw [byteLength_append]
    rfl
  rw [← List.singleton_append, ← List.append_assoc, ← next, utf8_append,
    List.getElem?_append_right (by rw [length_utf8]), length_utf8, Nat.sub_self] at slash
  obtain ⟨none, d, back, rfl, empty, code⟩ := exists_split_of_byte slash (by decide)
  obtain rfl : d = '/' := Char.ext (UInt32.toNat_inj.1 code)
  obtain rfl := eq_nil_of_byteLength empty
  exact ⟨front, back, by simp⟩

theorem commentTurn?_eq (source : Source) (pos : Nat) : source.commentTurn? pos = (do
    let start := pos + source.indent pos
    let stop := (source.commentEnd? start).getD source.size
    return .found ⟨.skip, ← source.location? start stop, none⟩ []
      (source.nextLineStart (max (stop - 1) start))) := by
  rw [commentTurn?]
  dsimp only
  rw [toList_extract]
  rfl

theorem commentEnd_le_size {text masked : List Char} (reads : source.Reads text masked) (start : Nat) :
    (source.commentEnd? start).getD source.size ≤ source.size := by
  cases found : source.commentEnd? start with
  | none => exact Nat.le_refl _
  | some stop =>
      obtain ⟨place, rfl, slash⟩ := commentEndFrom_spec found
      rw [List.getElem?_drop, Array.getElem?_toList] at slash
      have inside := (Array.getElem?_eq_some_iff.1 slash).1
      rw [reads.text_size_eq] at inside
      rw [Option.getD_some]
      omega

namespace Insertion

variable {shifted : Source} (ins : source.Insertion shifted)

theorem shift_lt_shift {line other : Nat} : ins.shift line < ins.shift other ↔ line < other := by
  unfold shift
  split <;> split <;> omega

theorem shift_inj {line other : Nat} : ins.shift line = ins.shift other ↔ line = other := by
  unfold shift
  split <;> split <;> omega

/-! ## Braces -/

theorem braceAfter?_move (index : Nat) (sameLine : Option Nat) :
    shifted.braceAfter? (ins.move index) (sameLine.map ins.move) =
      (source.braceAfter? index sameLine).map ins.move := by
  cases sameLine with
  | some brace => rfl
  | none =>
      rw [Option.map_none, braceAfter?, braceAfter?, ins.codeLineAfter?_move]
      cases found : source.codeLineAfter? index with
      | none => rfl
      | some start =>
          have member := (codeLineAfter?_spec ins.reads found).1
          have inLine := (ins.reads.between_indent start).2
          have moved := ins.move_lineStart_add inLine
          rw [ins.reads.lineStart_of_mem member] at moved
          simp only [Option.map_some, Option.bind_eq_bind, Option.bind_some, ins.indent_move, ← moved,
            ins.byteAt_move]
          split <;> rfl

/-- A search from the end of a line before the insertion goes on after it, if it passes over blanks. -/
theorem search_move {α : Type} (search : Nat → α) {index : Nat}
    (passes : ∀ place, ins.place ≤ place → place < ins.place + ins.count →
      search place = search (place + 1)) :
    search (ins.move index + 1) = search (ins.move (index + 1)) := by
  by_cases last : index + 1 = ins.place
  · have through (distance : Nat) (le : distance ≤ ins.count) :
        search ins.place = search (ins.place + distance) := by
      induction distance with
      | zero => rfl
      | succ distance ih =>
          rw [ih (by omega), passes _ (by omega) (by omega), Nat.add_assoc]
    rw [ins.move_of_lt (by omega), last, ins.move_of_le (Nat.le_refl _)]
    exact through ins.count (Nat.le_refl _)
  · rw [ins.move_add (by omega)]

/-- A place just past a byte that ends no line moves with the byte. -/
theorem move_succ {index : Nat} {b : UInt8} (byte : source.masked[index]? = some b) (other : b ≠ 10) :
    ins.move (index + 1) = ins.move index + 1 := by
  refine ins.move_add fun before => ?_
  have apart : index + 1 ≠ ins.place := by
    intro last
    rw [ins.masked_before last] at byte
    exact other (Option.some.inj byte).symm
  omega

/-- What following braces has found, moved. -/
def moveFound : Sum Nat (Option Nat) → Sum Nat (Option Nat) := Sum.map ins.move (Option.map ins.move)

theorem closingFrom_move {braceLine margin depth index : Nat} {settled : Option Nat}
    {bytes : List UInt8} (here : source.masked.toList.drop index = bytes) :
    shifted.closingFrom (ins.shift braceLine) margin depth (settled.map ins.move) (ins.move index)
        (shifted.masked.toList.drop (ins.move index)) =
      ins.moveFound (source.closingFrom braceLine margin depth settled index bytes) := by
  induction bytes generalizing depth settled index with
  | nil =>
      have ended : shifted.masked.toList.drop (ins.move index) = [] := by
        rw [List.drop_eq_nil_iff, Array.length_toList] at here ⊢
        exact Nat.le_trans (Nat.le_of_eq ins.size_move) (ins.move_le_move.2 here)
      rw [ended]
      rfl
  | cons b rest ih =>
      obtain ⟨byte, tail⟩ := drop_eq_cons here
      have byte' := byte
      rw [← ins.masked_move] at byte'
      rw [drop_of_getElem? byte']
      have go (depth : Nat) (settled : Option Nat) :
          shifted.closingFrom (ins.shift braceLine) margin depth (settled.map ins.move)
              (ins.move index + 1) (shifted.masked.toList.drop (ins.move index + 1)) =
            ins.moveFound (source.closingFrom braceLine margin depth settled (index + 1) rest) := by
        rw [← ih tail]
        refine ins.search_move (fun place => shifted.closingFrom (ins.shift braceLine) margin
          depth (settled.map ins.move) place (shifted.masked.toList.drop place)) ?_
        intro place after before
        obtain ⟨c, blank, kind⟩ := ins.masked_inserted after before
        rw [drop_of_getElem? blank, closingFrom]
        rcases kind with rfl | rfl | rfl | rfl <;> rfl
      refine closingFrom_cons_map go fun closing => ?_
      have same : (shifted.lineOf (ins.move index) == ins.shift braceLine) =
          (source.lineOf index == braceLine) := by
        rw [ins.lineOf_move, Bool.eq_iff_iff, beq_iff_eq, beq_iff_eq, ins.shift_inj]
      exact ⟨ins.move_succ byte (by rw [closing]; decide), same, ins.leadsLine_move _ _⟩

/-- A line before the insertion has its code before it, too. -/
theorem move_add_indent {start : Nat} (member : start ∈ source.lineStarts) :
    ins.move (start + source.indent start) = ins.move start + source.indent start := by
  have inLine := (ins.reads.between_indent start).2
  have moved := ins.move_lineStart_add inLine
  rwa [ins.reads.lineStart_of_mem member] at moved

theorem byteAt_inserted {index : Nat} (after : ins.place ≤ index)
    (before : index < ins.place + ins.count) : shifted.byteAt index ≠ 125 := by
  obtain ⟨b, byte, kind⟩ := ins.masked_inserted after before
  rw [byteAt, Array.getD_eq_getD_getElem?, byte, Option.getD_some]
  rcases kind with rfl | rfl | rfl | rfl <;> decide

theorem leadingBrace?_move (brace margin : Nat) :
    shifted.leadingBrace? (ins.move brace) margin = (source.leadingBrace? brace margin).map ins.move := by
  refine leadingBrace?_map (ins.find?_move ?same ?passed) ?places
  case places =>
    intro start member _
    rw [ins.indent_move, ins.move_add_indent member]
  case same =>
    intro start member
    rw [closesAt, closesAt, ins.indent_move, ← ins.move_add_indent member, ins.byteAt_move, ins.indent_move,
      decide_eq_decide.2 ins.move_lt_move]
  case passed =>
    intro start member after before
    have inLine := (ins.reads'.between_indent start).2
    have ended := ins.reads'.lineEnd_lt ins.next_mem before
    rw [ins.reads'.lineStart_of_mem member] at inLine
    have other : shifted.byteAt (start + shifted.indent start) ≠ 125 :=
      ins.byteAt_inserted (by omega) (by omega)
    rw [closesAt, beq_eq_false_iff_ne.2 other, Bool.false_and, Bool.and_false]

theorem blockEnd_move (brace margin : Nat) :
    shifted.blockEnd (ins.move brace) margin = ins.move (source.blockEnd brace margin) := by
  have found := @closingFrom_move _ _ ins (source.lineOf brace) margin 0 brace none _ rfl
  rw [Option.map_none, ← ins.lineOf_move] at found
  exact blockEnd_map found (ins.leadingBrace?_move brace margin)
    (fun place byte => ins.move_succ byte (by decide)) ins.size_move

/-! ## Parentheses and comments -/

theorem closingParen?_move (limit : Nat) {depth index : Nat} :
    closingParen? depth (ins.move index)
        (shifted.masked.extract (ins.move index) (ins.move limit)).toList =
      (closingParen? depth index (source.masked.extract index limit).toList).map ins.move := by
  induction size : limit - index generalizing depth index with
  | zero =>
      have outside := Nat.le_of_sub_eq_zero size
      rw [extract_eq_nil outside, extract_eq_nil (ins.move_le_move.2 outside)]
      rfl
  | succ size ih =>
      cases byte : source.masked[index]? with
      | none =>
          rw [extract_eq_nil_of_none byte, extract_eq_nil_of_none (ins.masked_move index ▸ byte)]
          rfl
      | some b =>
          have byte' := byte
          rw [← ins.masked_move] at byte'
          rw [extract_eq_cons byte (by omega), extract_eq_cons byte' (ins.move_lt_move.2 (by omega))]
          have go (depth : Nat) : closingParen? depth (ins.move index + 1)
              (shifted.masked.extract (ins.move index + 1) (ins.move limit)).toList =
                (closingParen? depth (index + 1)
                  (source.masked.extract (index + 1) limit).toList).map ins.move := by
            rw [← ih (by omega)]
            refine ins.search_move (fun place => closingParen? depth place
              (shifted.masked.extract place (ins.move limit)).toList) ?_
            intro place after before
            rcases Nat.lt_or_ge place (ins.move limit) with inside | outside
            · obtain ⟨c, blank, kind⟩ := ins.masked_inserted after before
              rw [extract_eq_cons blank inside, closingParen?]
              rcases kind with rfl | rfl | rfl | rfl <;> rfl
            · rw [extract_eq_nil outside, extract_eq_nil (by omega)]
              rfl
          exact closingParen?_cons_map go

/-- The place of the insertion follows a line break of the text. -/
theorem text_before {index : Nat} (last : index + 1 = ins.place) : source.text[index]? = some 10 :=
  (ins.reads.newline_iff index).2 (ins.masked_before last)

theorem endsComment_move (index : Nat) :
    shifted.EndsComment (ins.move index) ↔ source.EndsComment index := by
  by_cases last : index + 1 = ins.place
  · have newline := ins.text_before last
    have newline' := newline
    rw [← ins.text_move] at newline'
    simp [EndsComment, newline, newline']
  · rw [EndsComment, EndsComment, ← ins.move_add (by omega), ins.text_move, ins.text_move]

/-- Where a comment ends, the next two places move along. -/
theorem move_add_two {index : Nat} (ends : source.EndsComment index) :
    ins.move (index + 2) = ins.move index + 2 := by
  refine ins.move_add fun before => ?_
  have first : index + 1 ≠ ins.place := by
    intro last
    have byte := ins.text_before last
    rw [ends.1] at byte
    cases byte
  have second : index + 2 ≠ ins.place := by
    intro last
    have byte := ins.text_before last
    rw [ends.2] at byte
    cases byte
  omega

theorem text_size_move : shifted.text.size = ins.move source.text.size := by
  rw [ins.reads.text_size_eq, ins.reads'.text_size_eq, ins.size_move]

/-- The end of a comment moves when nothing that is put in ends it. -/
theorem commentEnd?_move {start : Nat}
    (clear : start < ins.place → ∀ index, ins.place ≤ index → index < ins.place + ins.count →
      ¬ shifted.EndsComment index) :
    shifted.commentEnd? (ins.move start) = (source.commentEnd? start).map ins.move := by
  induction size : source.text.size - start generalizing start with
  | zero =>
      have outside := Nat.le_of_sub_eq_zero size
      rw [commentEnd?_of_size_le outside, commentEnd?_of_size_le]
      · rfl
      · rw [ins.text_size_move]
        exact ins.move_le_move.2 outside
  | succ size ih =>
      by_cases ends : source.EndsComment start
      · rw [commentEnd?_of_ends ends, commentEnd?_of_ends ((ins.endsComment_move start).2 ends),
          Option.map_some, ins.move_add_two ends]
      · have inside : start < source.text.size := by omega
        have inside' : ins.move start < shifted.text.size := by
          rw [ins.text_size_move]
          exact ins.move_lt_move.2 inside
        rw [commentEnd?_succ inside ends,
          commentEnd?_succ inside' (mt (ins.endsComment_move start).1 ends),
          ← ih (fun before => clear (by omega)) (by omega)]
        by_cases last : start + 1 = ins.place
        · refine ins.search_move (shifted.commentEnd?) fun place after before => ?_
          refine commentEnd?_succ ?_ (clear (by omega) place after before)
          obtain ⟨b, blank, -⟩ := ins.masked_inserted after before
          rw [ins.reads'.text_size_eq]
          exact (Array.getElem?_eq_some_iff.1 blank).1
        · rw [ins.move_add (by omega)]

/-- A comment that ends before the insertion stays as it is. -/
theorem commentEnd?_stays {start stop : Nat} (found : source.commentEnd? start = some stop)
    (before : stop ≤ ins.place) : shifted.commentEnd? start = some stop := by
  induction size : source.text.size - start generalizing start with
  | zero =>
      rw [commentEnd?_of_size_le (Nat.le_of_sub_eq_zero size)] at found
      cases found
  | succ size ih =>
      have inside : start < source.text.size := by omega
      by_cases ends : source.EndsComment start
      · rw [commentEnd?_of_ends ends] at found
        cases found
        have same := (ins.endsComment_move start).2 ends
        rw [ins.move_of_lt (by omega)] at same
        exact commentEnd?_of_ends same
      · rw [commentEnd?_succ inside ends] at found
        have rest := ih found (by omega)
        obtain ⟨place, eq, -⟩ := commentEndFrom_spec found
        have same := mt (ins.endsComment_move start).1 ends
        rw [ins.move_of_lt (by omega)] at same
        rw [commentEnd?_succ ?_ same, rest]
        have size' := ins.text_size_move
        have le := ins.place_le_size
        rw [← ins.reads.text_size_eq] at le
        rw [ins.move_of_le le] at size'
        omega

end Insertion
end Source
end DebugBridge
