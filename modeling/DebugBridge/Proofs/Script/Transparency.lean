import DebugBridge.Proofs.Script.Cuts
import DebugBridge.Proofs.Script.Transit

/-!
# Comments are transparent

A comment on lines of its own changes nothing of what a scan finds but the numbers of the lines after
it.  The comment itself is passed over, or found as a skipped region on its own lines.  A block comment
has to be closed on a later line: one that closes on the line where it opens is searched for its end
only behind that line, and hides what comes before the next end of a comment.
-/

namespace DebugBridge
namespace Source
namespace Insertion

open Text Header Mask

variable {source shifted : Source} (ins : source.Insertion shifted)

/-- A scan passes over what is put in, and finds at most skipped regions there. -/
def Passed : Prop := ∀ (limit : Nat) (scope : List String) (inClass : Bool) (nodes : List Node),
  ins.place + ins.count ≤ limit →
  shifted.scan? (ins.place + ins.count) limit scope inClass = some nodes →
  ∃ nodes', shifted.scan? ins.place limit scope inClass = some nodes' ∧
    ∀ old, Node.Renumbered ins.first ins.lines old nodes →
      Node.Renumbered ins.first ins.lines old nodes'

/-- What a scan finds between two places, it finds between those to which they have moved. -/
def Carried (pos limit : Nat) : Prop := ∀ (scope : List String) (inClass : Bool) (nodes : List Node),
  source.scan? pos limit scope inClass = some nodes →
  ∃ nodes', shifted.scan? (ins.move pos) (ins.move limit) scope inClass = some nodes' ∧
    Node.Renumbered ins.first ins.lines nodes nodes'

/-! ## Scans -/

section Scans

variable {ins}

theorem exists_within?_move {inside : Option (Nat × Nat)} {scope : List String} {inClass : Bool}
    {nodes : List Node} (carried : ∀ range ∈ inside, ins.Carried range.1 range.2)
    (found : source.within? inside scope inClass = some nodes) :
    ∃ nodes', shifted.within? (inside.map fun range => (ins.move range.1, ins.move range.2)) scope
        inClass = some nodes' ∧ Node.Renumbered ins.first ins.lines nodes nodes' ∧
      (inside = none → nodes'.length = nodes.length) := by
  cases inside with
  | none =>
      cases found
      exact ⟨[], rfl, .nil, fun _ => rfl⟩
  | some range =>
      obtain ⟨nodes', found', renumbered⟩ := carried range rfl scope inClass nodes found
      exact ⟨nodes', found', renumbered, nofun⟩

theorem exists_accessors_move {accessors accessors' : List Opener}
    (each : List.Forall₂ ins.Moved accessors accessors') {scope : List String} {nested : List Node}
    (carried : ∀ accessor ∈ accessors, ∀ range ∈ accessor.inside, ins.Carried range.1 range.2)
    (found : accessors.mapM (source.accessorNode? scope) = some nested) :
    ∃ nested', accessors'.mapM (shifted.accessorNode? scope) = some nested' ∧
      Node.Renumbered ins.first ins.lines nested nested' ∧ nested'.length = nested.length := by
  induction each generalizing nested with
  | nil =>
      cases found
      exact ⟨[], rfl, .nil, rfl⟩
  | @cons accessor accessor' rest rest' moved each ih =>
      rw [List.forall_mem_cons] at carried
      simp only [List.mapM_cons, Option.pure_def, Option.bind_eq_bind, Option.bind_eq_some_iff,
        Option.some.injEq, accessorNode?] at found
      obtain ⟨_, ⟨inside, entered, rfl⟩, others, tail, rfl⟩ := found
      obtain ⟨inside', entered', within, lengths⟩ := exists_within?_move carried.1 entered
      obtain ⟨others', tail', renumbered, length⟩ := ih carried.2 tail
      rw [← moved.inside_eq, ← moved.kinds.name?_eq] at entered'
      refine ⟨.mk accessor'.kind scope accessor'.location inside' :: others', ?_,
        .moved moved.kinds moved.places (fun isProperty => lengths (moved.flat isProperty)) within
          renumbered, by simp [length]⟩
      simp [List.mapM_cons, accessorNode?, entered', tail']

/-- From the insertion on, a scan goes on after what is put in. -/
theorem exists_scan?_goesOn (passed : ins.Passed) {pos limit pos' : Nat} (goes : ins.GoesOn pos pos')
    {scope : List String} {inClass : Bool} {nodes nodes' : List Node}
    (found : source.scan? pos limit scope inClass = some nodes)
    (found' : shifted.scan? (ins.move pos) (ins.move limit) scope inClass = some nodes')
    (renumbered : Node.Renumbered ins.first ins.lines nodes nodes') :
    ∃ nodes', shifted.scan? pos' (ins.move limit) scope inClass = some nodes' ∧
      Node.Renumbered ins.first ins.lines nodes nodes' := by
  rcases goes with rfl | ⟨rfl, rfl⟩
  · exact ⟨nodes', found', renumbered⟩
  · rw [ins.move_of_le (Nat.le_refl _)] at found'
    rcases Nat.lt_or_ge limit ins.place with before | after
    · rw [scan?_outside (by omega)] at found
      cases found
      rw [ins.move_of_lt before, scan?_outside (by omega)]
      exact ⟨[], rfl, .nil⟩
    · have le : ins.place + ins.count ≤ ins.move limit := by
        rw [ins.move_of_le after]
        omega
      obtain ⟨nodes'', whole, inserted⟩ := passed _ scope inClass nodes' le found'
      exact ⟨nodes'', whole, inserted nodes renumbered⟩

variable (ins) in
theorem inFile_move {pos limit : Nat} : (ins.move pos < ins.move limit ∧ ins.move pos < shifted.size) ↔
    (pos < limit ∧ pos < source.size) := by
  rw [ins.size_move, ins.move_lt_move, ins.move_lt_move]

/-- What a scan finds in a file, it finds in the longer one. -/
theorem carried (admits : source.Admits ins.place ins.inserted) (passed : ins.Passed)
    (pos limit : Nat) : ins.Carried pos limit := by
  intro scope inClass nodes found
  refine scan?_induction (P := fun pos limit scope inClass nodes =>
    ∃ nodes', shifted.scan? (ins.move pos) (ins.move limit) scope inClass = some nodes' ∧
      Node.Renumbered ins.first ins.lines nodes nodes') ?outside ?pass ?found found
  case outside =>
    intro pos limit scope inClass outside
    exact ⟨[], scan?_outside (mt ins.inFile_move.1 outside), .nil⟩
  case pass =>
    rintro pos limit next scope inClass nodes inFile turn - rest ⟨nodes', rest', renumbered⟩
    obtain ⟨_, turn', ⟨goes⟩⟩ := exists_turnAt?_move admits inFile.2 turn
    rw [scan?_pass (ins.inFile_move.2 inFile) turn']
    exact exists_scan?_goesOn passed goes rest rest' renumbered
  case found =>
    rintro pos limit next scope inClass opener accessors inside nested others inFile turn entered accessed
      enter - rest ⟨nodes', rest', renumbered⟩
    obtain ⟨-, deeper⟩ := turnAt?_advances inFile.2 turn
    obtain ⟨_, turn', moved⟩ := exists_turnAt?_move admits inFile.2 turn
    obtain _ | ⟨here, each, goes⟩ := moved
    have carried (range : Nat × Nat) (member : range ∈ (Turn.found opener accessors next).insides) :
        ins.Carried range.1 range.2 :=
      fun scope inClass nodes => enter range scope inClass nodes (deeper range member)
    obtain ⟨inside', entered', within, flat⟩ := exists_within?_move
      (fun range member => carried range (by simp [Turn.insides, Option.mem_def.1 member])) entered
    obtain ⟨nested', accessed', below, length⟩ := exists_accessors_move each
      (fun accessor place range member => carried range (by
        simp only [Turn.insides, List.mem_append, List.mem_filterMap]
        exact .inr ⟨accessor, place, member⟩)) accessed
    obtain ⟨others', whole, after⟩ := exists_scan?_goesOn passed goes rest rest' renumbered
    rw [← here.inside_eq, ← here.kinds.name?_eq, ← here.kinds.isClass_eq] at entered'
    rw [← here.kinds.name?_eq] at accessed'
    rw [scan?_found (ins.inFile_move.2 inFile) turn' entered' accessed', whole]
    refine ⟨_, rfl, .moved here.kinds here.places (fun isProperty => ?_) (within.append below) after⟩
    rw [List.length_append, List.length_append, flat (here.flat isProperty), length]

end Scans

/-! ## Lines of a comment -/

/-- A line whose code begins with a character other than a slash opens no comment. -/
theorem opensComment_of_prefix {line indent rest : List Char} {c : Char}
    (indents : ∀ d ∈ indent, isIndent d) (other : isIndent c = false) (noSlash : c ≠ '/')
    (starts : line <+: indent ++ c :: rest) : opensComment line = false := by
  obtain ⟨more, same⟩ := starts
  rcases List.append_eq_append_iff.1 same with ⟨blanks, rfl, -⟩ | ⟨code, rfl, split⟩
  · rw [List.forall_mem_append] at indents
    rw [opensComment, skipIndent_of_indents indents.1]
    rfl
  · rw [opensComment, skipIndent_append indents]
    cases code with
    | nil => rfl
    | cons d code =>
        obtain ⟨rfl, -⟩ := List.cons.inj split
        have slash : ('/' == c) = false := beq_eq_false_iff_ne.2 (Ne.symm noSlash)
        rw [skipIndent_of_head (by simpa using other), afterStart, slash]
        rfl

section Comments

theorem rawLine_place : shifted.rawLine ins.place <+: ins.inserted ++ ins.after := by
  obtain ⟨front, back, plain, start, -⟩ := ins.reads'.exists_rawLine ins.place
  rw [ins.reads'.lineStart_of_mem ins.place_mem'] at start
  exact prefix_of_byteLength plain.symm start

theorem maskedLine_place : shifted.maskedLine ins.place <+: ins.blanks ++ ins.back := by
  obtain ⟨front, back, hidden, start, -⟩ := ins.reads'.exists_maskedLine ins.place
  rw [ins.reads'.lineStart_of_mem ins.place_mem', ← ins.front_length] at start
  exact prefix_of_byteLength hidden.symm start

theorem count_pos : 0 < ins.count := by
  rcases List.eq_nil_or_concat' ins.inserted with empty | ⟨text, c, split⟩
  · have ends := ins.ends
    rw [empty] at ends
    cases ends
  · rw [count, split, byteLength_append, byteLength_cons]
    have := c.utf8Size_pos
    omega

theorem segment?_place {limit : Nat} (le : ins.place + ins.count ≤ limit) :
    shifted.segment? ins.place limit = some (shifted.maskedLine ins.place) := by
  have positive := ins.count_pos
  have ended := ins.reads'.lineEnd_lt ins.next_mem (Nat.lt_add_of_pos_right positive)
  have start := ins.reads'.lineStart_of_mem ins.place_mem'
  have first := (ins.reads'.between_lineStart ins.place).masked
  have last := (ins.reads'.between_lineEnd ins.place).masked
  have ordered := ins.reads'.lineStart_le_lineEnd ins.place
  rw [start] at first ordered
  rw [segment?, Nat.min_eq_left (by omega), Nat.max_eq_left ordered, cut?_eq ordered first last,
    maskedLine, start]

/-- Bytes of the lines that are put in. -/
theorem mem_of_text {index : Nat} {b : UInt8} {front part back : List Char}
    (split : ins.inserted = front ++ (part ++ back)) (byte : shifted.text[index]? = some b)
    (ascii : b.toNat < 0x80) (lower : ins.place + byteLength front ≤ index)
    (upper : index < ins.place + byteLength front + byteLength part) :
    ∃ c ∈ part, c.toNat = b.toNat := by
  have whole : ins.before ++ (ins.inserted ++ ins.after) =
      (ins.before ++ front) ++ (part ++ (back ++ ins.after)) := by
    rw [split]
    simp
  rw [ins.reads'.text_eq, List.getElem?_toArray, whole] at byte
  refine mem_of_byte byte ascii ?_ ?_
  · rwa [byteLength_append]
  · rwa [byteLength_append]

theorem text_inserted {front back : List Char} {c : Char} (split : ins.inserted = front ++ c :: back)
    (ascii : c.toNat < 0x80) :
    shifted.text[ins.place + byteLength front]? = some (UInt8.ofNat c.toNat) := by
  have whole : ins.before ++ (ins.inserted ++ ins.after) =
      (ins.before ++ front) ++ c :: (back ++ ins.after) := by
    rw [split]
    simp
  rw [ins.reads'.text_eq, List.getElem?_toArray, whole, place, ← byteLength_append]
  exact getElem?_utf8_ascii ascii

/-- The last line that is put in has no line break but the last one. -/
theorem nextLineStart_inserted {front part : List Char} (split : ins.inserted = front ++ (part ++ ['\n']))
    (inLine : '\n' ∉ part) {index : Nat} (lower : ins.place + byteLength front ≤ index)
    (upper : index < ins.place + ins.count) :
    shifted.nextLineStart index = ins.place + ins.count := by
  refine ins.reads'.nextLineStart_eq_of_mem ins.next_mem upper fun place after before newline => ?_
  have count : ins.count = byteLength front + (byteLength part + 1) := by
    rw [Insertion.count, split, byteLength_append, byteLength_append]
    rfl
  rw [← ins.reads'.newline_iff] at newline
  obtain ⟨c, member, code⟩ := ins.mem_of_text split newline (by decide) (by omega) (by omega)
  obtain rfl : c = '\n' := Char.ext (UInt32.toNat_inj.1 code)
  exact inLine member

/-- The scan stands before its limit, and in the file. -/
theorem inFile_place {limit : Nat} (le : ins.place + ins.count ≤ limit) :
    ins.place < limit ∧ ins.place < shifted.size := by
  have positive := ins.count_pos
  have size := ins.size_move
  rw [ins.move_of_le ins.place_le_size] at size
  have := ins.place_le_size
  omega

/-- A remark is passed over. -/
theorem passed_of_remark {indent body : List Char} (indents : ∀ c ∈ indent, isIndent c)
    (inLine : '\n' ∉ body) (written : ins.inserted = indent ++ ';' :: (body ++ ['\n'])) :
    ins.Passed := by
  intro limit scope inClass nodes le found
  have positive := ins.count_pos
  have plain : opensComment (shifted.rawLine ins.place) = false := by
    have starts : shifted.rawLine ins.place <+: ins.inserted ++ ins.after := ins.rawLine_place
    rw [written, List.append_assoc, List.cons_append] at starts
    exact opensComment_of_prefix indents (by decide) (by decide) starts
  have whole : ins.inserted = [] ++ ((indent ++ ';' :: body) ++ ['\n']) := by simp [written]
  have next : shifted.nextLineStart ins.place = ins.place + ins.count := by
    refine ins.nextLineStart_inserted whole ?_ (Nat.le_refl _) (Nat.lt_add_of_pos_right positive)
    intro member
    rcases List.mem_append.1 member with blank | member
    · cases indents _ blank
    · rcases List.mem_cons.1 member with semicolon | member
      · cases semicolon
      · exact inLine member
  have turn : shifted.turnAt? ins.place limit inClass = some (.pass (ins.place + ins.count)) := by
    have blank := ins.allBlank_inserted (Nat.le_refl _) (Nat.lt_add_of_pos_right positive)
    rw [turnAt?, ins.segment?_place le, Option.bind_eq_bind, Option.bind_some]
    dsimp only
    rw [plain, Bool.and_false, if_neg Bool.false_ne_true, if_pos blank, next]
    rfl
  rw [scan?_pass (ins.inFile_place le) turn]
  exact ⟨nodes, found, fun _ renumbered => renumbered⟩

section Block

variable {version : Version} {before next : Option Char} {indent first body trail : List Char}
  (indents : ∀ c ∈ indent, isIndent c) (inLine : '\n' ∉ first)
  (closed : ¬ ['*', '/'] <:+: first ++ '\n' :: (body ++ ['*']))
  (written : ins.inserted = (indent ++ '/' :: '*' :: first) ++
    ('\n' :: body ++ '*' :: '/' :: (trail ++ ['\n'])))
  (masked : ins.blanks = maskPart version (.code true) before next ins.inserted)

include indents inLine closed written masked

/-- What the line is masked to on which a block comment opens. -/
theorem exists_blanks : ∃ blanks rest, ins.blanks = blanks ++ rest ∧ (∀ c ∈ blanks, isIndent c) ∧
    byteLength blanks = byteLength (indent ++ '/' :: '*' :: first) := by
  have opening : Passes version isIndent (.code true) before (some '\n')
      (indent ++ '/' :: '*' :: first) .comment := by
    refine passes_opening indents inLine fun ends => closed (ends.trans ⟨[], body ++ ['*'], by simp⟩)
  refine ⟨maskPart version (.code true) before (some '\n') (indent ++ '/' :: '*' :: first),
    maskPart version .comment ((indent ++ '/' :: '*' :: first).getLast?.or before) next
      ('\n' :: body ++ '*' :: '/' :: (trail ++ ['\n'])), ?_, opening.blank,
    (masks_maskPart _ _ _ _ _).byteLength_eq⟩
  rw [masked, written, maskPart_append, ← opening.mode_eq]
  rfl

/-- The line ends with what it has of the comment. -/
theorem lineEnd_opening : shifted.lineEnd ins.place =
    ins.place + byteLength (indent ++ '/' :: '*' :: first) := by
  obtain ⟨blanks, rest, split, blank, length⟩ := exists_blanks ins indents inLine closed written masked
  refine ins.reads'.lineEnd_eq_of_newline ins.place_mem' (Nat.le_add_right _ _) ?_ ?_
  · rw [← ins.reads'.newline_iff]
    exact ins.text_inserted written (by decide)
  · intro index lower upper
    have inside {b : UInt8} (byte : shifted.masked[index]? = some b) (ascii : b.toNat < 0x80) :
        ∃ c ∈ blanks, c.toNat = b.toNat := by
      rw [ins.reads'.masked_eq, List.getElem?_toArray, split, List.append_assoc] at byte
      have front := ins.front_length
      exact mem_of_byte byte ascii (by omega) (by omega)
    constructor
    · intro byte
      obtain ⟨c, member, code⟩ := inside byte (by decide)
      obtain rfl : c = '\n' := Char.ext (UInt32.toNat_inj.1 code)
      cases blank _ member
    · intro byte
      obtain ⟨c, member, code⟩ := inside byte (by decide)
      obtain rfl : c = '\r' := Char.ext (UInt32.toNat_inj.1 code)
      cases blank _ member

theorem rawLine_opening : shifted.rawLine ins.place = indent ++ '/' :: '*' :: first := by
  have ends := lineEnd_opening ins indents inLine closed written masked
  have begins := ins.reads'.lineStart_of_mem ins.place_mem'
  obtain ⟨front, back, -, start, stop⟩ := ins.reads'.exists_rawLine ins.place
  obtain ⟨rest, whole⟩ := ins.rawLine_place
  rw [written, List.append_assoc] at whole
  exact append_inj_of_byteLength whole (by omega)

/-- All of the line is masked, so its code begins with its end. -/
theorem indent_place : ins.place + shifted.indent ins.place =
    ins.place + byteLength (indent ++ '/' :: '*' :: first) := by
  have ends := lineEnd_opening ins indents inLine closed written masked
  have begins := ins.reads'.lineStart_of_mem ins.place_mem'
  obtain ⟨blanks, rest, split, blank, length⟩ := exists_blanks ins indents inLine closed written masked
  have line : shifted.maskedLine ins.place = blanks := by
    obtain ⟨front, back, -, start, stop⟩ := ins.reads'.exists_maskedLine ins.place
    obtain ⟨more, whole⟩ := ins.maskedLine_place
    rw [split, List.append_assoc] at whole
    exact append_inj_of_byteLength whole (by omega)
  rw [← length, Source.indent, line, ← Reads.byteLength_indents, List.takeWhile_eq_self_iff.2 blank]

omit indents inLine masked in
/-- The comment ends where it is closed. -/
theorem commentEnd?_inserted :
    shifted.commentEnd? (ins.place + byteLength (indent ++ '/' :: '*' :: first)) =
      some (ins.place + byteLength (indent ++ '/' :: '*' :: first) + byteLength ('\n' :: body) + 2) := by
  have whole : ins.before ++ (ins.inserted ++ ins.after) =
      (ins.before ++ (indent ++ '/' :: '*' :: first)) ++
        (('\n' :: body ++ ['*']) ++ ('/' :: (trail ++ ['\n']) ++ ins.after)) := by
    rw [written]
    simp
  have size : byteLength (ins.before ++ (indent ++ '/' :: '*' :: first)) =
      ins.place + byteLength (indent ++ '/' :: '*' :: first) := byteLength_append _ _
  refine commentEnd?_eq ⟨?_, ?_⟩ (Nat.le_add_right _ _) fun index lower upper ends => ?_
  · rw [Nat.add_assoc, ← byteLength_append]
    exact ins.text_inserted (by rw [written]; simp : ins.inserted =
      (indent ++ '/' :: '*' :: first ++ '\n' :: body) ++ '*' :: '/' :: (trail ++ ['\n'])) (by decide)
  · have size : byteLength (indent ++ '/' :: '*' :: first) + byteLength ('\n' :: body) + 1 =
        byteLength (indent ++ '/' :: '*' :: first ++ ('\n' :: body ++ ['*'])) := by
      rw [byteLength_append _ ('\n' :: body ++ ['*']), byteLength_append ('\n' :: body)]
      rfl
    rw [Nat.add_assoc, Nat.add_assoc, ← Nat.add_assoc (byteLength _), size]
    exact ins.text_inserted (by rw [written]; simp : ins.inserted =
      (indent ++ '/' :: '*' :: first ++ ('\n' :: body ++ ['*'])) ++ '/' :: (trail ++ ['\n'])) (by decide)
  · have text_eq := ins.reads'.text_eq
    rw [whole] at text_eq
    have inside := infix_of_endsComment text_eq ends (by omega) (by
      rw [size, byteLength_append ('\n' :: body)]
      exact Nat.add_lt_add_right upper 1)
    exact closed (inside.trans ⟨first, [], by simp⟩)

variable (trails : ∀ c ∈ trail, c = ' ' ∨ c = '\t' ∨ c = '\r')

include trails

omit indents inLine closed masked in
/-- From the end of the comment its last line goes on with blanks only. -/
theorem nextLineStart_closing {start stop : Nat}
    (start_eq : start = ins.place + byteLength (indent ++ '/' :: '*' :: first))
    (stop_eq : stop = start + byteLength ('\n' :: body) + 2) :
    stop < ins.place + ins.count ∧ shifted.nextLineStart (max (stop - 1) start) = ins.place + ins.count := by
  have whole : ins.inserted = (indent ++ '/' :: '*' :: first ++ ('\n' :: body ++ ['*'])) ++
      (('/' :: trail) ++ ['\n']) := by
    rw [written]
    simp
  have size : byteLength (indent ++ '/' :: '*' :: first ++ ('\n' :: body ++ ['*'])) =
      byteLength (indent ++ '/' :: '*' :: first) + byteLength ('\n' :: body) + 1 := by
    rw [byteLength_append _ ('\n' :: body ++ ['*']), byteLength_append ('\n' :: body)]
    rfl
  have tail : byteLength ('/' :: trail ++ ['\n']) = byteLength trail + 2 := by
    rw [List.cons_append, byteLength_cons, byteLength_append, Nat.add_comm]
    rfl
  have count : ins.count = byteLength (indent ++ '/' :: '*' :: first) + byteLength ('\n' :: body) + 1 +
      (byteLength trail + 2) := by
    rw [Insertion.count, whole, byteLength_append, size, tail]
  have inLine : '\n' ∉ '/' :: trail := by
    intro member
    rcases List.mem_cons.1 member with slash | member
    · cases slash
    · have := trails _ member
      simp at this
  exact ⟨by omega, ins.nextLineStart_inserted whole inLine (by omega) (by omega)⟩

/-- The turn of a scan at a block comment finds a skipped region on the lines of the comment. -/
theorem exists_turnAt?_block {limit : Nat} (le : ins.place + ins.count ≤ limit) (inClass : Bool) :
    ∃ location : Location,
      shifted.turnAt? ins.place limit inClass =
        some (.found ⟨.skip, location, none⟩ [] (ins.place + ins.count)) ∧
      ins.first < location.first.line ∧ location.last.line ≤ ins.first + ins.lines := by
  have raw := rawLine_opening ins indents inLine closed written masked
  have code := indent_place ins indents inLine closed written masked
  have ends := commentEnd?_inserted ins closed written
  have begins := ins.reads'.lineStart_of_mem ins.place_mem'
  have first_between := (ins.reads'.between_indent ins.place).1
  have opens : opensComment (shifted.rawLine ins.place) = true := by
    rw [raw, opensComment, skipIndent_append indents, skipIndent_of_head (by simp [isIndent])]
    rfl
  rw [begins, code] at first_between
  generalize start_eq : ins.place + byteLength (indent ++ '/' :: '*' :: first) = start at *
  generalize stop_eq : start + byteLength ('\n' :: body) + 2 = stop at *
  obtain ⟨inside, next⟩ := nextLineStart_closing ins written trails start_eq.symm stop_eq.symm
  have last_between : shifted.Between stop := by
    obtain ⟨place, rfl, slash⟩ := commentEndFrom_spec ends
    rw [List.getElem?_drop, Array.getElem?_toList] at slash
    exact between_after_text ins.reads' slash (by decide)
  obtain ⟨location, located⟩ := first_between.exists_location last_between
  refine ⟨location, ?_, ?_⟩
  · rw [turnAt?, ins.segment?_place le, Option.bind_eq_bind, Option.bind_some]
    dsimp only
    rw [begins, beq_self_eq_true, opens, Bool.and_self, if_pos rfl, commentTurn?_eq]
    dsimp only
    rw [code, ends, Option.getD_some, located, next]
    rfl
  · obtain ⟨-, stop_eq, first_eq, last_eq, -⟩ := location?_spec located
    have low := ins.lineOf_inserted (show ins.place ≤ start by omega) (by omega)
    have high := ins.lineOf_inserted
      (show ins.place ≤ max (location.stop - 1) start by omega) (by omega)
    rw [first_eq, last_eq]
    exact ⟨Nat.lt_succ_of_le low.1, high.2⟩

/-- A block comment is found as a skipped region on its own lines. -/
theorem passed_of_block : ins.Passed := by
  intro limit scope inClass nodes le found
  obtain ⟨location, turn, low, high⟩ :=
    exists_turnAt?_block ins indents inLine closed written masked trails le inClass
  have entered : shifted.within? none (scope ++ Kind.skip.name?.toList) Kind.skip.isClass = some [] := rfl
  have accessed : [].mapM (shifted.accessorNode? (scope ++ Kind.skip.name?.toList)) = some [] := rfl
  rw [scan?_found (ins.inFile_place le) turn entered accessed, found]
  exact ⟨_, rfl, fun old renumbered => .inserted low high renumbered⟩

end Block

end Comments

/-! ## Comments in a text -/

theorem first_eq : ins.first = ins.before.count '\n' := by
  have split : source.lineStarts = ((0 :: breaksFrom 0 (utf8 ins.before)) ++
      breaksFrom ins.place (utf8 ins.after)).toArray := by
    rw [ins.reads.lineStarts_eq, utf8_append, breaksFrom_append, length_utf8, Nat.zero_add]
    rfl
  have early : (0 :: breaksFrom 0 (utf8 ins.before)).findIdx (fun start => ins.place < start) =
      ins.before.count '\n' + 1 := by
    rw [List.findIdx_eq_length.2, List.length_cons, length_breaksFrom]
    intro start member
    rw [decide_eq_false_iff_not, Nat.not_lt]
    rcases List.mem_cons.1 member with rfl | member
    · exact Nat.zero_le _
    · obtain ⟨place, newline, rfl⟩ := mem_breaksFrom.1 member
      have inside := (List.getElem?_eq_some_iff.1 newline).1
      rw [length_utf8] at inside
      rw [Insertion.place]
      omega
  have late : (breaksFrom ins.place (utf8 ins.after)).findIdx (fun start => ins.place < start) = 0 := by
    cases starts : breaksFrom ins.place (utf8 ins.after) with
    | nil => rfl
    | cons start rest =>
        have member : start ∈ breaksFrom ins.place (utf8 ins.after) := by
          rw [starts]
          exact List.mem_cons_self
        obtain ⟨place, -, rfl⟩ := mem_breaksFrom.1 member
        rw [List.findIdx_cons, decide_eq_true (by omega), cond_true]
  rw [first, lineOf, split, List.findIdx_toArray, List.findIdx_append, early, late, List.length_cons,
    length_breaksFrom, if_neg (Nat.lt_irrefl _)]
  omega

section Texts

variable {version : Version} {before comment after : List Char}

theorem maskSource_split (fresh : modeAfter version (.code true) none after.head? before = .code true)
    (lines : before = [] ∨ before.getLast? = some '\n') :
    maskSource version (before ++ after) =
      maskPart version (.code true) none after.head? before ++
        maskFrom version (.code true) none after := by
  rw [maskSource, maskFrom_append, fresh, Option.or_none]
  rcases lines with rfl | last
  · rfl
  · rw [last, maskFrom_newline]

theorem passes_comment_of_lines {next : Option Char} (lines : before = [] ∨ before.getLast? = some '\n')
    (isComment : Comment comment) :
    Passes version separates (.code true) before.getLast? next comment (.code true) := by
  refine passes_comment isComment ?_
  rcases lines with rfl | last
  · rfl
  · rw [last]
    rfl

theorem maskSource_comment (fresh : modeAfter version (.code true) none after.head? before = .code true)
    (lines : before = [] ∨ before.getLast? = some '\n') (isComment : Comment comment) :
    maskSource version (before ++ (comment ++ after)) =
      maskPart version (.code true) none after.head? before ++
        (maskPart version (.code true) before.getLast? after.head? comment ++
          maskFrom version (.code true) none after) := by
  obtain ⟨part_eq, mode_eq⟩ := maskPart_lines lines (comment ++ after).head? after.head?
  rw [maskSource, maskFrom_append, part_eq, mode_eq, fresh, Option.or_none, maskFrom_append,
    (passes_comment_of_lines lines isComment).mode_eq, isComment.getLast?_eq, Option.some_or,
    maskFrom_newline]

/-- A comment put in at the start of a line in code. -/
def ofComment (path : String) (fresh : modeAfter version (.code true) none after.head? before = .code true)
    (lines : before = [] ∨ before.getLast? = some '\n') (isComment : Comment comment) :
    (ofText version path (before ++ after)).Insertion
      (ofText version path (before ++ (comment ++ after))) where
  before := before
  inserted := comment
  after := after
  front := maskPart version (.code true) none after.head? before
  blanks := maskPart version (.code true) before.getLast? after.head? comment
  back := maskFrom version (.code true) none after
  path_eq := rfl
  reads := by
    rw [← maskSource_split fresh lines]
    exact reads_ofText version path _
  reads' := by
    rw [← maskSource_comment fresh lines isComment]
    exact reads_ofText version path _
  front_masks := masks_maskPart _ _ _ _ _
  blanks_masks := masks_maskPart _ _ _ _ _
  begins := lines
  ends := isComment.getLast?_eq
  blank := (passes_comment_of_lines lines isComment).blank

/-- A comment that is put in is passed over. -/
theorem passed_ofComment (path : String)
    (fresh : modeAfter version (.code true) none after.head? before = .code true)
    (lines : before = [] ∨ before.getLast? = some '\n') (isComment : Comment comment) :
    (ofComment path fresh lines isComment).Passed := by
  cases isComment with
  | remark indents inLine => exact passed_of_remark _ indents inLine rfl
  | block indents inLine closed trails =>
      exact passed_of_block _ indents inLine closed (by simp [ofComment]) rfl trails

end Texts

/-- What a scan of a whole file finds, one of the longer file finds. -/
theorem exists_scan?_whole (admits : source.Admits ins.place ins.inserted) (passed : ins.Passed)
    {nodes : List Node} (found : source.scan? 0 source.size [] false = some nodes) :
    ∃ nodes', shifted.scan? 0 shifted.size [] false = some nodes' ∧
      Node.Renumbered ins.first ins.lines nodes nodes' := by
  rw [ins.size_move]
  obtain ⟨nodes', found', renumbered⟩ := ins.carried admits passed 0 source.size _ _ _ found
  exact exists_scan?_goesOn passed ins.goesOn_zero found found' renumbered

/-! ## Lines with code -/

theorem hasCode_renumber (nodes nodes' : List Node) (line : Nat) :
    ScannedFile.hasCode ⟨shifted, nodes'⟩ (renumber ins.first ins.lines line) =
      ScannedFile.hasCode ⟨source, nodes⟩ line := by
  have same : shifted.lineText? (renumber ins.first ins.lines line) = source.lineText? line := by
    cases line with
    | zero => rfl
    | succ line =>
        rw [← ins.shift_succ, ins.reads'.lineText?_succ, ins.reads.lineText?_succ,
          ins.getElem?_lineStarts_shift, Option.map_map]
        cases source.lineStarts[line]? with
        | none => rfl
        | some start =>
            rw [Option.map_some, Option.map_some, Function.comp_apply, ins.maskedLine_move]
  rw [ScannedFile.hasCode, ScannedFile.hasCode, same]

/-- The lines that are put in have no code on them. -/
theorem hasCode_inserted (nodes : List Node) {line : Nat} (after : ins.first < line)
    (before : line ≤ ins.first + ins.lines) : ScannedFile.hasCode ⟨shifted, nodes⟩ line = false := by
  obtain ⟨line, rfl⟩ := Nat.exists_eq_succ_of_ne_zero (Nat.ne_zero_of_lt after)
  rw [ScannedFile.hasCode, ins.reads'.lineText?_succ]
  cases here : shifted.lineStarts[line]? with
  | none => rfl
  | some start =>
      obtain ⟨lower, upper⟩ := ins.mem_inserted here (Nat.le_of_lt_succ after) before
      rw [Option.map_some]
      dsimp only
      rw [String.toList_ofList, trim_eq_nil_iff.2 (ins.allBlank_inserted lower upper)]
      rfl

end Insertion
end Source

namespace IncludeContext

open Source Mask Text

/-- A comment on lines of its own, put in at the start of a line that is not inside of a comment and
does not follow a backtick, leaves the structure of a script alone: its nodes are the same ones with
their lines renumbered, and every line breakpoint goes to the same line under its new number. -/
theorem scanSource_comment (context : IncludeContext) (host : Host) (path : String)
    {before comment after : List Char} {file : ScannedFile}
    (lines : before = [] ∨ before.getLast? = some '\n') (plain : ∀ body, before ≠ body ++ ['\x60', '\n'])
    (outside : modeAfter context.version (.code true) none after.head? before ≠ .comment)
    (isComment : Comment comment)
    (admits : (ofText context.version path (before ++ after)).Admits (byteLength before) comment)
    (scanned : context.scanSource host path (before ++ after) = .ok file) :
    ∃ longer, context.scanSource host path (before ++ (comment ++ after)) = .ok longer ∧
      Node.Renumbered (before.count '\n') (comment.count '\n') file.nodes longer.nodes ∧
      ∀ requested,
        longer.resolveLine (renumber (before.count '\n') (comment.count '\n') requested) =
          ScannedFile.renumberResult (before.count '\n') (comment.count '\n')
            (file.resolveLine requested) := by
  have fresh := modeAfter_line lines plain outside
  let ins := Insertion.ofComment path fresh lines isComment
  have first : ins.first = before.count '\n' := ins.first_eq
  have count : ins.lines = comment.count '\n' := rfl
  unfold scanSource at scanned
  split at scanned
  next source nodes visited found =>
    cases scanned
    simp only [scanText, Option.pure_def, Option.bind_eq_bind, Option.bind_eq_some_iff,
      Option.some.injEq, Prod.mk.injEq, Prod.exists] at found
    obtain ⟨outline, whole, nodes', walk, linked, rfl, rfl, -⟩ := found
    obtain ⟨outline', whole', moved⟩ :=
      ins.exists_scan?_whole admits (Insertion.passed_ofComment path fresh lines isComment) whole
    obtain ⟨linked', found', renumbered, -⟩ :=
      moved.exists_linkAll (fun _ _ _ _ => rfl) linked
    refine ⟨⟨ofText context.version path (before ++ (comment ++ after)), linked'⟩, ?_, ?_, ?_⟩
    · rw [scanSource, scanText]
      dsimp only
      rw [whole', Option.bind_eq_bind, Option.bind_some, found']
      rfl
    · rwa [first, count] at renumbered
    · rw [← first, ← count]
      exact ScannedFile.resolveLine_renumber (Nat.le_of_lt ins.first_lt_lineCount) ins.lineCount_move
        (ins.hasCode_renumber _ _) (fun line after before => ins.hasCode_inserted _ after before)
        renumbered
  next => cases scanned

/-- A comment of two lines before a method, in a script with another one. -/
theorem scanSource_comment_method :
    let before := "/* a\n*/\nclass A \x7b\n".toList
    let comment := "  /* c\n  */\n".toList
    let after := "  F() \x7b\n  \x7d\n\x7d\n".toList
    ∃ file longer, scanSource ⟨.v2, "a.ahk", none, "/", none⟩ ⟨⟨[], []⟩, ⟨[]⟩⟩ "a.ahk"
        (before ++ after) = .ok file ∧
      scanSource ⟨.v2, "a.ahk", none, "/", none⟩ ⟨⟨[], []⟩, ⟨[]⟩⟩ "a.ahk"
        (before ++ (comment ++ after)) = .ok longer ∧
      Node.Renumbered 3 2 file.nodes longer.nodes ∧
      ∀ requested, longer.resolveLine (renumber 3 2 requested) =
        ScannedFile.renumberResult 3 2 (file.resolveLine requested) := by
  intro before comment after
  have plain (body : List Char) : before ≠ body ++ ['\x60', '\n'] := by
    intro same
    have ends := congrArg List.reverse same
    simp [before] at ends
  have isComment : Comment comment :=
    .block (by simp [isIndent] : ∀ c ∈ [' ', ' '], isIndent c) (by decide : '\n' ∉ [' ', 'c'])
      (by decide : ¬ ['*', '/'] <:+: [' ', 'c'] ++ '\n' :: ([' ', ' '] ++ ['*']))
      (List.forall_mem_nil _)
  have admits : (ofText .v2 "a.ahk" (before ++ after)).Admits (byteLength before) comment := by
    refine ⟨fun same => absurd same (by decide), fun start member earlier opens => .inl ?_⟩
    have closed : ∀ start ∈ (ofText .v2 "a.ahk" (before ++ after)).lineStarts.toList,
        start < byteLength before →
        Header.opensComment ((ofText .v2 "a.ahk" (before ++ after)).rawLine start) = true →
        ∃ stop ∈ [7], (ofText .v2 "a.ahk" (before ++ after)).commentEnd?
          (start + (ofText .v2 "a.ahk" (before ++ after)).indent start) = some stop := by
      decide +kernel
    obtain ⟨stop, inside, ends⟩ := closed start (Array.mem_toList_iff.2 member) earlier opens
    rw [List.mem_singleton] at inside
    exact ⟨stop, inside ▸ by decide, ends⟩
  have succeeds : (scanSource ⟨.v2, "a.ahk", none, "/", none⟩ ⟨⟨[], []⟩, ⟨[]⟩⟩ "a.ahk"
      (before ++ after)).toOption.any fun _ => true := by
    decide +kernel
  obtain ⟨file, scanned, -⟩ := exists_ok_of_any succeeds
  obtain ⟨longer, found, same⟩ := scanSource_comment ⟨.v2, "a.ahk", none, "/", none⟩
    ⟨⟨[], []⟩, ⟨[]⟩⟩ "a.ahk" (.inr (by decide)) plain (by decide +kernel) isComment admits scanned
  exact ⟨file, longer, scanned, found, same⟩

/-- A comment that closes on its own line hides the method after it. -/
theorem method_hidden :
    let before := "class A \x7b\n".toList
    let comment := "  /* c */\n".toList
    let after := "  F() \x7b\n    x := 1\n  \x7d\n\x7d\n".toList
    modeAfter .v2 (.code true) none after.head? before = .code true ∧
      ∃ file longer, scanSource ⟨.v2, "a.ahk", none, "/", none⟩ ⟨⟨[], []⟩, ⟨[]⟩⟩ "a.ahk"
          (before ++ after) = .ok file ∧
        scanSource ⟨.v2, "a.ahk", none, "/", none⟩ ⟨⟨[], []⟩, ⟨[]⟩⟩ "a.ahk"
          (before ++ (comment ++ after)) = .ok longer ∧
        (Node.flattenAll file.nodes).filterMap Node.name? = ["A", "F"] ∧
        (Node.flattenAll longer.nodes).filterMap Node.name? = ["A"] ∧
        file.resolveLine 3 = ⟨3, true⟩ ∧ longer.resolveLine 4 = ⟨4, false⟩ := by
  intro before comment after
  have found : (scanSource ⟨.v2, "a.ahk", none, "/", none⟩ ⟨⟨[], []⟩, ⟨[]⟩⟩ "a.ahk"
      (before ++ after)).toOption.any fun file =>
        (Node.flattenAll file.nodes).filterMap Node.name? = ["A", "F"] ∧
          file.resolveLine 3 = ⟨3, true⟩ := by
    decide +kernel
  have hidden : (scanSource ⟨.v2, "a.ahk", none, "/", none⟩ ⟨⟨[], []⟩, ⟨[]⟩⟩ "a.ahk"
      (before ++ (comment ++ after))).toOption.any fun longer =>
        (Node.flattenAll longer.nodes).filterMap Node.name? = ["A"] ∧
          longer.resolveLine 4 = ⟨4, false⟩ := by
    decide +kernel
  obtain ⟨file, scanned, named⟩ := exists_ok_of_any found
  obtain ⟨longer, scanned', unnamed⟩ := exists_ok_of_any hidden
  rw [decide_eq_true_eq] at named unnamed
  exact ⟨by decide, file, longer, scanned, scanned', named.1, unnamed.1, named.2, unnamed.2⟩

end IncludeContext
end DebugBridge
