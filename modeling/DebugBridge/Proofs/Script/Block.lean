import DebugBridge.Proofs.Script.Header
import DebugBridge.Proofs.Script.Lines

/-!
# Blocks

Braces of a laid out block balance, so that following them from the opening brace comes to the
closing brace of the same block and to no other one.  A block that stands in a file is then found
from its header with the offsets and lines that its layout gives it.
-/

namespace DebugBridge
namespace Layout

open Text Source

/-! ## Balanced texts -/

/-- Texts whose braces match. -/
inductive Balanced : List Char → Prop where
  /-- A text without braces. -/
  | plain {text : List Char} (other : ∀ c ∈ text, c ≠ '{' ∧ c ≠ '}') : Balanced text
  /-- One text after another. -/
  | append {text rest : List Char} (first : Balanced text) (second : Balanced rest) :
      Balanced (text ++ rest)
  /-- A text between braces. -/
  | braced {text : List Char} (inner : Balanced text) : Balanced ('{' :: (text ++ ['}']))

theorem Calm.balanced {text : List Char} (calm : Calm text) : Balanced text := by
  refine .plain fun c mem => ?_
  have inside := calm c mem
  constructor <;> rintro rfl <;> exact absurd inside (by decide)

theorem Balanced.cons {c : Char} {text : List Char} (other : c ≠ '{' ∧ c ≠ '}')
    (balanced : Balanced text) : Balanced (c :: text) :=
  @Balanced.append [c] text (.plain (by simpa using other)) balanced

/-- Inside a block, balanced braces leave the depth as it is. -/
theorem closingFrom_balanced {text : List Char} (balanced : Balanced text) (source : Source)
    (braceLine margin depth : Nat) (settled : Option Nat) (index : Nat) (rest : List UInt8) :
    source.closingFrom braceLine margin (depth + 1) settled index (utf8 text ++ rest) =
      source.closingFrom braceLine margin (depth + 1) settled (index + byteLength text) rest := by
  -- The depth is never zero inside, so whether a brace leads its line is not asked.
  induction balanced generalizing depth index rest with
  | @plain text other =>
      have skip (bytes : List UInt8) (index : Nat) (clear : 123 ∉ bytes ∧ 125 ∉ bytes) :
          source.closingFrom braceLine margin (depth + 1) settled index (bytes ++ rest) =
            source.closingFrom braceLine margin (depth + 1) settled (index + bytes.length)
              rest := by
        induction bytes generalizing index with
        | nil => rfl
        | cons b bytes ih =>
            simp only [List.mem_cons, not_or] at clear
            rw [List.cons_append, closingFrom, if_neg (by simpa using Ne.symm clear.1.1),
              if_neg (by simp [Ne.symm clear.2.1]), if_neg (by simpa using Ne.symm clear.2.1),
              ih _ ⟨clear.1.2, clear.2.2⟩, List.length_cons, Nat.add_assoc, Nat.add_comm 1]
      rw [← length_utf8]
      refine skip _ _ ⟨fun member => ?_, fun member => ?_⟩
      · exact (other _ (mem_of_mem_utf8 (c := '{') (by decide) member)).1 rfl
      · exact (other _ (mem_of_mem_utf8 (c := '}') (by decide) member)).2 rfl
  | @append text others _ _ first second =>
      rw [utf8_append, List.append_assoc, first, second, byteLength_append, Nat.add_assoc]
  | @braced text _ inner =>
      have bytes : utf8 ('{' :: (text ++ ['}'])) ++ rest = 123 :: (utf8 text ++ 125 :: rest) := by
        rw [utf8_cons, utf8_append]
        simp only [List.append_assoc]
        rfl
      have stays : ((125 : UInt8) == 125 && depth + 1 + 1 - 1 == 0) = false := by simp
      rw [bytes, closingFrom, if_pos (by decide), inner, closingFrom, if_neg (by decide), stays,
        if_neg Bool.false_ne_true, if_pos (by decide), Nat.add_sub_cancel, byteLength_cons,
        byteLength_append, byteLength_cons, byteLength_nil]
      congr 1
      have one : ('{').utf8Size = 1 ∧ ('}').utf8Size = 1 := by decide
      omega

/-! ## The lines of a block -/

namespace Braces

variable (braces : Braces) (heading : List Char)

/-- The lines before that of the opening brace. -/
def front : List (List Char) :=
  match braces.opening with
  | .sameLine _ _ => []
  | .nextLine after _ _ => [braces.indent.text ++ heading ++ after.text]

/-- What stands before the opening brace on its line. -/
def before : List Char :=
  match braces.opening with
  | .sameLine gap _ => braces.indent.text ++ heading ++ gap.text
  | .nextLine _ indent _ => indent.text

/-- What stands after the opening brace on its line. -/
def behind : Blanks :=
  match braces.opening with
  | .sameLine _ after => after
  | .nextLine _ _ gap => gap

/-- The line of the opening brace. -/
def braceLine : List Char := braces.before heading ++ '{' :: braces.behind.text

theorem opened_eq : braces.opened heading = braces.front heading ++ [braces.braceLine heading] := by
  obtain ⟨indent, opening, close, after, shallow⟩ := braces
  cases opening <;> simp [opened, front, braceLine, before, behind, Opening.tail, Opening.more]

theorem length_front : (braces.front heading).length = braces.opening.more.length := by
  obtain ⟨indent, opening, close, after, shallow⟩ := braces
  cases opening <;> rfl

variable {heading}

theorem calm_front (calm : Calm heading) : ∀ line ∈ braces.front heading, Calm line := by
  obtain ⟨indent, opening, close, after, shallow⟩ := braces
  cases opening with
  | sameLine gap after => exact List.forall_mem_nil _
  | nextLine after inner gap =>
      simp only [front, List.forall_mem_singleton, calm_append]
      exact ⟨⟨indent.calm, calm⟩, after.calm⟩

theorem calm_before (calm : Calm heading) : Calm (braces.before heading) := by
  obtain ⟨indent, opening, close, after, shallow⟩ := braces
  cases opening with
  | sameLine gap after =>
      simp only [before, calm_append]
      exact ⟨⟨indent.calm, calm⟩, gap.calm⟩
  | nextLine after inner gap => exact inner.calm

end Braces

theorem balanced_begun {lines : List (List Char)} (balanced : ∀ line ∈ lines, Balanced line) :
    Balanced (begun lines) := by
  induction lines with
  | nil => exact .plain (List.forall_mem_nil _)
  | cons line lines ih =>
      rw [List.forall_mem_cons] at balanced
      rw [begun_cons]
      exact .append (.cons (by decide) balanced.1) (ih balanced.2)

/-- What stands between the braces of a block. -/
theorem balanced_inside (braces : Braces) {body : List (List Char)}
    (inner : Balanced (begun body)) :
    Balanced (braces.behind.text ++ (begun body ++ '\n' :: braces.close.text)) :=
  .append braces.behind.calm.balanced (.append inner (.cons (by decide) braces.close.calm.balanced))

/-- The braces of a block match. -/
theorem balanced_block (braces : Braces) {heading : List Char} (calm : Calm heading)
    {body : List (List Char)} (inner : Balanced (begun body)) :
    Balanced (begun (braces.opened heading ++ body ++ [braces.closing])) := by
  have written : begun (braces.opened heading ++ body ++ [braces.closing]) =
      begun (braces.front heading) ++ ('\n' :: braces.before heading ++
        (('{' :: ((braces.behind.text ++ (begun body ++ '\n' :: braces.close.text)) ++ ['}'])) ++
          braces.after.text)) := by
    rw [braces.opened_eq]
    simp [begun, Braces.braceLine, Braces.closing]
  rw [written]
  refine .append (balanced_begun fun line mem => (braces.calm_front calm line mem).balanced) ?_
  refine .append (.cons (by decide) (braces.calm_before calm).balanced) ?_
  exact .append (.braced (balanced_inside braces inner)) braces.after.calm.balanced

/-- The braces of a forest match. -/
theorem Forest.balanced {place : Place} (forest : Forest place) :
    Balanced (begun forest.lines) := by
  induction forest with
  | done => exact .plain (List.forall_mem_nil _)
  | blank blanks rest ih =>
      rw [lines, begun_cons]
      exact .append (.cons (by decide) blanks.calm.balanced) ih
  | assignment declares indent target gap value rest ih =>
      rw [lines, begun_cons]
      exact .append (.cons (by decide) (calm_assignmentLine _ _ _ _).balanced) ih
  | arrow declares indent header gap body rest ih =>
      rw [lines, begun_cons]
      exact .append (.cons (by decide) (calm_arrowLine _ _ _ _).balanced) ih
  | block heading braces body rest inside after =>
      rw [lines, List.append_cons, begun_append]
      exact .append (balanced_block braces heading.calm inside) after

/-! ## A block in a file -/

theorem Blanks.byteLength_text (blanks : Blanks) : byteLength blanks.text = blanks.text.length := by
  refine byteLength_of_le fun c mem => ?_
  have indent := blanks.indents c mem
  rw [isIndent, Bool.or_eq_true, beq_iff_eq, beq_iff_eq] at indent
  rcases indent with rfl | rfl <;> decide

/-- A line is indented by the blanks at its beginning. -/
theorem Blanks.takeWhile_append (blanks : Blanks) {rest : List Char}
    (other : ∀ c ∈ rest.head?, isIndent c = false) :
    (blanks.text ++ rest).takeWhile isIndent = blanks.text := by
  rw [List.takeWhile_append_of_pos blanks.indents]
  cases rest with
  | nil => simp
  | cons c rest => simp [other c rfl]

/-- Blanks before a text keep it from beginning with another character. -/
theorem Blanks.head?_append_ne (blanks : Blanks) {text : List Char} {c : Char}
    (other : isIndent c = false) (text_head : text.head? ≠ some c) :
    (blanks.text ++ text).head? ≠ some c := by
  cases found : blanks.text with
  | nil => exact text_head
  | cons d rest =>
      rintro ⟨⟩
      have indent := blanks.indents c (found ▸ List.mem_cons_self)
      rw [other] at indent
      cases indent

theorem byteLength_begun (lines : List (List Char)) :
    byteLength (begun lines) = offsetAfter lines := by
  induction lines with
  | nil => rfl
  | cons line lines ih =>
      have one : ('\n').utf8Size = 1 := by decide
      rw [begun_cons, byteLength_append, byteLength_cons, ih, offsetAfter_cons]
      omega

/-- A block between other lines. -/
structure Block where
  /-- The lines before it. -/
  earlier : List (List Char)
  /-- Its layout. -/
  braces : Braces
  /-- Its header. -/
  heading : List Char
  /-- The lines between those of its braces. -/
  body : List (List Char)
  /-- The lines after it. -/
  later : List (List Char)

namespace Block

/-- All the lines. -/
def lines (block : Block) : List (List Char) :=
  block.earlier ++
    (block.braces.opened block.heading ++ block.body ++ block.braces.closing :: block.later)

/-- The lines up to the closing brace. -/
def closed (block : Block) : List (List Char) :=
  block.earlier ++ block.braces.opened block.heading ++ block.body ++ [block.braces.closing]

/-- Where the line of the header starts. -/
def start (block : Block) : Nat := offsetAfter block.earlier

/-- What stands up to the end of the header on its line. -/
def head (block : Block) : List Char := block.braces.indent.text ++ block.heading

/-- Where the opening brace is. -/
def openAt (block : Block) : Nat :=
  offsetAfter (block.earlier ++ block.braces.front block.heading) +
    byteLength (block.braces.before block.heading)

/-- Where the line after that of the opening brace starts. -/
def inside (block : Block) : Nat :=
  offsetAfter (block.earlier ++ block.braces.opened block.heading)

/-- Where the closing brace is. -/
def closeAt (block : Block) : Nat :=
  offsetAfter (block.earlier ++ block.braces.opened block.heading ++ block.body) +
    byteLength block.braces.close.text

/-- The line of the opening brace, counted from one. -/
def braceNumber (block : Block) : Nat :=
  block.earlier.length + 1 + block.braces.opening.more.length

/-- The line after that of the opening brace, counted from one. -/
theorem length_opened (block : Block) :
    (block.earlier ++ block.braces.opened block.heading).length + 1 = block.braceNumber + 1 := by
  simp only [List.length_append, Braces.opened, List.length_cons, braceNumber]
  omega

/-- Whether a location reaches from the line of the header to that of the closing brace. -/
def Spans (block : Block) (location : Location) : Prop :=
  location.first.line = block.earlier.length + 1 ∧
    location.last.line = block.braceNumber + block.body.length + 1

/-- What stands between the braces. -/
def content (block : Block) : List Char :=
  block.braces.behind.text ++ (begun block.body ++ '\n' :: block.braces.close.text)

theorem inside_eq (block : Block) :
    block.inside = block.openAt + 1 + byteLength block.braces.behind.text + 1 := by
  have one : ('{').utf8Size = 1 := by decide
  simp only [inside, openAt, Braces.opened_eq, Braces.braceLine, offsetAfter_append,
    offsetAfter_cons, offsetAfter_nil, byteLength_append, byteLength_cons, one]
  omega

theorem closeAt_eq (block : Block) :
    block.closeAt = block.openAt + 1 + byteLength block.content := by
  have one : ('\n').utf8Size = 1 := by decide
  have inside := block.inside_eq
  rw [Block.inside] at inside
  rw [closeAt, offsetAfter_append, inside, content]
  simp only [byteLength_append, byteLength_cons, byteLength_begun, one]
  omega

theorem le_openAt (block : Block) :
    offsetAfter (block.earlier ++ block.braces.front block.heading) ≤ block.openAt :=
  Nat.le_add_right _ _

theorem le_closeAt (block : Block) :
    offsetAfter (block.earlier ++ block.braces.opened block.heading ++ block.body) ≤
      block.closeAt :=
  Nat.le_add_right _ _

theorem openAt_le (block : Block) : block.openAt ≤
    offsetAfter (block.earlier ++ block.braces.front block.heading) +
      byteLength (block.braces.braceLine block.heading) := by
  rw [openAt, Braces.braceLine, byteLength_append]
  omega

theorem closeAt_lt (block : Block) : block.closeAt <
    offsetAfter (block.earlier ++ block.braces.opened block.heading ++ block.body) +
      byteLength block.braces.closing := by
  have one := ('}').utf8Size_pos
  rw [closeAt, Braces.closing, byteLength_append, byteLength_cons]
  omega

theorem closeAt_lt_closed (block : Block) : block.closeAt < offsetAfter block.closed := by
  have line := block.closeAt_lt
  rw [closed, offsetAfter_concat]
  omega

theorem start_lt_closeAt (block : Block) :
    block.start + byteLength (block.head ++ block.braces.opening.tail) < block.closeAt := by
  simp only [closeAt, start, head, Braces.opened, offsetAfter_append, offsetAfter_cons]
  omega

/-- No line of a block starts after its closing brace. -/
theorem le_closeAt_of_mem (block : Block) {start : Nat} (member : start ∈ startsFrom block.start
    (block.braces.opened block.heading ++ block.body ++ [block.braces.closing])) :
    start ≤ block.closeAt := by
  have last : block.start + offsetAfter (block.braces.opened block.heading ++ block.body) ≤
      block.closeAt := by
    rw [Block.start, closeAt, List.append_assoc, offsetAfter_append block.earlier]
    omega
  rw [startsFrom_append, List.mem_append] at member
  rcases member with before | here
  · have lt := lt_of_mem_startsFrom before
    omega
  · rw [List.mem_singleton.1 here]
    exact last

/-- The code of a header begins right after its indentation. -/
theorem takeWhile_header (block : Block) (begins : Header.endsWord block.heading = false) :
    (block.head ++ block.braces.opening.tail).takeWhile isIndent = block.braces.indent.text := by
  rw [head, List.append_assoc]
  exact Blanks.takeWhile_append _
    (Header.isIndent_head (Header.endsWord_append_left begins _))

section Consists

variable {block : Block} {source : Source} (consists : source.Consists block.lines)

include consists

theorem at_header : source.Consists (block.earlier ++
    (block.head ++ block.braces.opening.tail) ::
      (block.braces.opening.more ++ block.body ++ block.braces.closing :: block.later)) := by
  simpa [lines, Braces.opened, head] using consists

theorem at_brace : source.Consists ((block.earlier ++ block.braces.front block.heading) ++
    block.braces.braceLine block.heading ::
      (block.body ++ block.braces.closing :: block.later)) := by
  simpa [lines, Braces.opened_eq] using consists

theorem at_closing : source.Consists
    ((block.earlier ++ block.braces.opened block.heading ++ block.body) ++
      block.braces.closing :: block.later) := by
  simpa [lines] using consists

theorem at_body : source.Consists ((block.earlier ++ block.braces.opened block.heading) ++
    (block.body ++ block.braces.closing :: block.later)) := by
  simpa [lines] using consists

theorem lineOf_openAt : source.lineOf block.openAt + 1 = block.braceNumber := by
  rw [(at_brace consists).lineOf_eq block.le_openAt block.openAt_le, List.length_append,
    Braces.length_front, braceNumber, Nat.add_right_comm]

theorem lineOf_closeAt : source.lineOf block.closeAt =
    block.earlier.length + block.braces.opening.more.length + block.body.length + 1 := by
  rw [(at_closing consists).lineOf_eq block.le_closeAt (Nat.le_of_lt block.closeAt_lt)]
  simp only [List.length_append, Braces.opened, List.length_cons]
  omega

/-- The closing brace leads its line. -/
theorem leadsLine_closeAt {margin : Nat} (deep : block.braces.indent.text.length ≤ margin) :
    source.leadsLine margin block.closeAt := by
  have shallow := block.braces.shallow
  have indent : block.braces.closing.takeWhile isIndent = block.braces.close.text :=
    Blanks.takeWhile_append _ (by simp; decide)
  rw [leadsLine, (at_closing consists).indent_eq block.le_closeAt (Nat.le_of_lt block.closeAt_lt),
    (at_closing consists).lineStart_eq block.le_closeAt (Nat.le_of_lt block.closeAt_lt), indent,
    closeAt, Blanks.byteLength_text]
  simp only [beq_self_eq_true, Bool.true_and, decide_eq_true_eq]
  omega

/-- The bytes from the opening brace on. -/
theorem extract_openAt : ∃ rest, (source.masked.extract block.openAt source.size).toList =
    123 :: (utf8 block.content ++ 125 :: rest) := by
  have written : joinLines (block.earlier ++ block.braces.front block.heading ++
      block.braces.braceLine block.heading ::
        (block.body ++ block.braces.closing :: block.later)) =
      ended (block.earlier ++ block.braces.front block.heading) ++
        block.braces.before block.heading ++
          '{' :: (block.content ++ '}' :: (block.braces.after.text ++ begun block.later)) := by
    rw [joinLines_split]
    simp [begun_append, begun_cons, content, Braces.braceLine, Braces.closing]
  have whole := (at_brace consists).masked_eq
  rw [written] at whole
  have offset : block.openAt =
      (utf8 (ended (block.earlier ++ block.braces.front block.heading) ++
        block.braces.before block.heading)).length := by
    rw [length_utf8, byteLength_append]
    rfl
  refine ⟨utf8 (block.braces.after.text ++ begun block.later), ?_⟩
  rw [size, whole, List.extract_toArray, List.toList_toArray, List.extract_eq_take_drop,
    List.size_toArray, utf8_append, offset, List.length_append, Nat.add_sub_cancel_left,
    List.drop_left, List.take_length, utf8_cons, utf8_append, utf8_cons]
  rfl

/-- A block ends right after its closing brace. -/
theorem blockEnd_eq (inner : Balanced (begun block.body)) {margin : Nat}
    (deep : block.braces.indent.text.length ≤ margin) :
    source.blockEnd block.openAt margin = block.closeAt + 1 := by
  obtain ⟨rest, bytes⟩ := extract_openAt consists
  have found : source.closingFrom (source.lineOf block.openAt) margin 0 none block.openAt
      (123 :: (utf8 block.content ++ 125 :: rest)) = .inl (block.closeAt + 1) := by
    rw [closingFrom, if_pos (by decide), content,
      closingFrom_balanced (balanced_inside block.braces inner), ← content, ← closeAt_eq,
      closingFrom, if_neg (by decide), if_pos (by decide), leadsLine_closeAt consists deep,
      Bool.or_true, if_pos rfl]
  rw [blockEnd, bytes, found]

/-- The opening brace is found from anywhere on the line of the header. -/
theorem braceAfter?_eq {index : Nat} (lower : block.start ≤ index)
    (upper : index ≤ block.start + byteLength (block.head ++ block.braces.opening.tail)) :
    source.braceAfter? index
        ((block.braces.opening.brace? (byteLength block.head)).map (block.start + ·)) =
      some block.openAt := by
  obtain ⟨earlier, ⟨indent, opening, close, after, shallow⟩, heading, body, later⟩ := block
  cases opening with
  | sameLine gap after =>
      simp only [braceAfter?, Opening.brace?, Option.map_some, openAt, start, head, Braces.front,
        Braces.before, List.append_nil, byteLength_append, Nat.add_assoc]
  | nextLine behind inner gap =>
      have header := at_header consists
      have brace := at_brace consists
      simp only [head, Opening.tail, Opening.more, Braces.front, Braces.braceLine, Braces.before,
        Braces.behind, List.cons_append] at header brace
      have code : allBlank (inner.text ++ '{' :: gap.text) = false := by
        rw [allBlank, List.all_eq_false]
        exact ⟨'{', by simp, by decide⟩
      have indentation : source.indent (offsetAfter (earlier ++
          [indent.text ++ heading ++ behind.text])) = byteLength inner.text := by
        rw [brace.indent_eq (Nat.le_refl _) (Nat.le_add_right _ _),
          Blanks.takeWhile_append _ (by simp; decide), Blanks.byteLength_text]
      rw [Opening.brace?, Option.map_none, braceAfter?, header.codeLineAfter?_eq lower upper code]
      simp only [Option.bind_eq_bind, Option.bind_some, indentation]
      rw [brace.byteAt_eq rfl (by decide), if_pos (by decide)]
      rfl

theorem closeAt_lt_size : block.closeAt < source.size := by
  have size := (at_closing consists).line_le_size
  have inside := block.closeAt_lt
  omega

theorem isBoundary_closeAt : isBoundary source.masked block.closeAt :=
  (at_closing consists).isBoundary_masked block.braces.close.text _ rfl

/-- The stretch of a block, from its header to its closing brace. -/
theorem exists_blockLocation :
    ∃ location, source.location? (block.start + byteLength block.braces.indent.text)
        (block.closeAt + 1) = some location ∧ block.Spans location := by
  have starts := (at_header consists).isBoundary_masked block.braces.indent.text
    (block.heading ++ block.braces.opening.tail)
    (by rw [head, List.append_assoc])
  have stops := (at_closing consists).isBoundary_masked
    (block.braces.close.text ++ ['}']) block.braces.after.text
    (by simp [Braces.closing])
  have one : byteLength ['}'] = 1 := by decide
  rw [byteLength_append, one, ← Nat.add_assoc, ← closeAt] at stops
  have short : byteLength block.braces.indent.text ≤
      byteLength (block.head ++ block.braces.opening.tail) := by
    rw [head]
    simp only [byteLength_append]
    omega
  have header := block.start_lt_closeAt
  obtain ⟨location, found, first, last⟩ := consists.exists_location starts stops
    (by rw [start] at header; omega) (closeAt_lt_size consists)
  refine ⟨location, found, ?_, ?_⟩
  · rw [first, (at_header consists).lineOf_eq (Nat.le_add_right _ _) (by omega)]
  · rw [last, Nat.add_sub_cancel, lineOf_closeAt consists, braceNumber]
    omega

theorem indent_start (begins : Header.endsWord block.heading = false) :
    source.indent block.start = block.braces.indent.text.length := by
  rw [start, (at_header consists).indent_eq (Nat.le_refl _) (Nat.le_add_right _ _),
    block.takeWhile_header begins]

/-- A block is found from its header. -/
theorem blockTurn?_eq (inner : Balanced (begun block.body))
    (begins : Header.endsWord block.heading = false) (kind : Nat → Kind) :
    ∃ location, source.blockTurn? kind (block.start + byteLength block.braces.indent.text)
        block.start block.openAt =
      some (.found ⟨kind block.braceNumber, location, some (block.openAt + 1, block.closeAt)⟩ []
        (block.closeAt + 1)) ∧ block.Spans location := by
  obtain ⟨location, found, spans⟩ := exists_blockLocation consists
  refine ⟨location, ?_, spans⟩
  rw [blockTurn?, indent_start consists begins, blockEnd_eq consists inner (Nat.le_refl _),
    lineOf_openAt consists]
  simp only [found, Nat.add_sub_cancel]
  rfl

end Consists

end Block

end Layout
end DebugBridge
