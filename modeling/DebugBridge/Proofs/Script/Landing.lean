import DebugBridge.Proofs.Script.Carriage

/-!
# Searches in a file with carriage returns

What the scanner looks for from a place on, the next line with code, the end of a block, a closing
parenthesis or the end of a comment, it finds where that has gone: no carriage return is part of it.
-/

namespace DebugBridge

/-- A location as the lines of a file over which it reaches. -/
def Location.sketch (location : Location) : Location :=
  { location with
    start := 0, stop := 0, text := ""
    first := ⟨location.first.line, 0⟩, last := ⟨location.last.line, 0⟩ }

namespace Source

open Text

/-- A byte that ends no line is a character of its line. -/
theorem Reads.mem_maskedLine {source : Source} {text masked : List Char} (reads : source.Reads text masked)
    {index : Nat} {b : UInt8} (byte : source.masked[index]? = some b) (ascii : b.toNat < 0x80)
    (visible : b ≠ 10 ∧ b ≠ 13) : ∃ c ∈ source.maskedLine index, c.toNat = b.toNat := by
  obtain ⟨front, back, hidden, start, stop⟩ := reads.exists_maskedLine index
  have inLine := reads.lt_lineEnd byte visible.1 visible.2
  have begun := reads.lineStart_le index
  rw [reads.masked_eq, hidden, List.append_assoc, List.getElem?_toArray] at byte
  exact mem_of_byte byte ascii (by omega) (by omega)

namespace Returning

variable {source returned : Source} (returns : source.Returning returned)

/-! ## Places between characters -/

section Places

variable {returns} {index index' : Nat}

theorem Covers.isBoundary_masked (covers : returns.Covers index index') :
    isBoundary returned.masked index' = isBoundary source.masked index := by
  have goes := covers.cases
  rw [← returns.masked_getElem?] at goes
  rw [returns.reads.masked_eq, returns.reads'.masked_eq]
  exact isBoundary_returned returns.masked_returned goes

theorem Covers.isBoundary_text (covers : returns.Covers index index') :
    isBoundary returned.text index' = isBoundary source.text index := by
  have goes := covers.cases
  rw [← returns.reads.newline_iff, returns.reads.text_eq, List.getElem?_toArray,
    returns.move_eq_carry_text] at goes
  rw [returns.reads.text_eq, returns.reads'.text_eq]
  exact isBoundary_returned returns.text_returned goes

variable {start start' stop stop' : Nat}

/-- A location reaches over the same lines if it ends at the same byte, or at the end of the line
that its last byte is on. -/
theorem location?_rel (begins : returns.Covers start start') (ends : returns.Covers stop stop')
    (last : stop' = returns.move stop ∨
      source.lineOf (max (stop - 1) start) = source.lineOf stop ∧ stop ≤ source.size) :
    Option.Rel (fun location location' => location'.sketch = location.sketch)
      (source.location? start stop) (returned.location? start' stop') := by
  have closed : returns.Covers (max (min stop source.size) start)
      (max (min stop' returned.size) start') := by
    rw [returns.size_move]
    exact covers_max (covers_min ends (returns.covers_move _)) begins
  have last_eq : returned.lineOf (max (max (min stop' returned.size) start' - 1) start') =
      source.lineOf (max (max (min stop source.size) start - 1) start) := by
    have simpler (stop start size : Nat) :
        max (max (min stop size) start - 1) start = max (min stop size - 1) start := by omega
    rw [simpler, simpler]
    have atPlace (eq : stop' = returns.move stop) :
        returned.lineOf (max (min stop' returned.size - 1) start') =
          source.lineOf (max (min stop source.size - 1) start) := by
      have before := covers_max (returns.covers_pred (min stop source.size)) begins
      rw [returns.move_min, ← returns.size_move, ← eq] at before
      exact before.lineOf_eq
    rcases last with eq | ⟨same, -⟩
    · exact atPlace eq
    rcases ends.cases with eq | ⟨newline, rfl⟩
    · exact atPlace eq
    · have inside : stop < source.size := (Array.getElem?_eq_some_iff.1 newline).1
      have within : returns.move stop + 1 < returned.size := by
        rw [returns.size_move, ends.lt_move_iff]
        exact inside
      have here := (covers_max (returns.covers_move stop) begins).lineOf_eq
      rw [Nat.min_eq_left (Nat.le_of_lt within), Nat.min_eq_left (Nat.le_of_lt inside),
        Nat.add_sub_cancel, here]
      rcases Nat.le_total start stop with le | le
      · rw [Nat.max_eq_left le, same]
      · rw [Nat.max_eq_right le, Nat.max_eq_right (by omega)]
  have first_eq := begins.lineOf_eq
  rw [location?, location?, cut?, cut?]
  rw [closed.isBoundary_text, begins.isBoundary_text, decide_eq_true (Nat.le_max_right _ start),
    decide_eq_true (Nat.le_max_right _ start')]
  split
  · refine .some ?_
    simp [Location.sketch, position, first_eq, last_eq, returns.path_eq]
  · exact .none

end Places

/-! ## Segments -/

/-- Where a scan stops that stopped at `limit`: before a line break, after its carriage return. -/
def close (limit : Nat) : Nat := returns.move (limit + 1) - 1

theorem covers_close (limit : Nat) : returns.Covers limit (returns.close limit) :=
  returns.covers_pred (limit + 1)

theorem close_size : returns.close source.size = returned.size := by
  have ended : source.masked[source.size]? = none := Array.getElem?_eq_none_iff.2 (Nat.le_refl _)
  have other : source.masked[source.size]? ≠ some 10 := by
    rw [ended]
    nofun
  rw [close, returns.move_succ_of_ne other, returns.size_move, Nat.add_sub_cancel]

theorem close_pred {stop : Nat} (positive : 0 < stop) :
    returns.close (stop - 1) = returns.move stop - 1 := by
  rw [close, Nat.sub_add_cancel positive]

include returns in
/-- A line ends at a line break or with the file. -/
theorem le_lineEnd {index : Nat} (inFile : index ≤ source.size) : index ≤ source.lineEnd index := by
  obtain ⟨earlier, start, later, onLine⟩ := returns.reads.exists_onLine index
  obtain ⟨stop, -, stops, eq | ⟨-, -, isReturn⟩⟩ := onLine.exists_stop returns.reads
  · rw [eq]
    rcases stops with ⟨head, -⟩ | ⟨-, rfl⟩
    · exact Nat.le_of_lt_succ (onLine.upper _ (List.mem_of_mem_head? head))
    · exact inFile
  · exact absurd isReturn (returns.masked_ne_return _)

section Segments

variable {returns} {index index' start limit : Nat}

/-- A limit stays before or after a place. -/
theorem Covers.close_lt_iff (covers : returns.Covers index index') :
    returns.close limit < index' ↔ limit < index := by
  have after : returns.move limit < returns.move (limit + 1) := returns.move_lt_move.2 (Nat.lt_succ_self _)
  have place := covers.lt_move_iff (limit + 1)
  rw [close]
  omega

/-- A stretch from a place to the end of its line or to a limit stays as it is, but for a blank at its
end. -/
theorem charsOf_padded (level : returned.lineOf index' = source.lineOf index)
    (begun : source.lineStart index ≤ start) (le : start ≤ min (source.lineEnd index) limit)
    (first : isBoundary source.masked start) :
    Header.Padded (charsOf source.masked start (min (source.lineEnd index) limit))
      (charsOf returned.masked (returns.move start)
        (min (returned.lineEnd index') (returns.close limit))) := by
  have inLine (place : Nat) (lower : start ≤ place) (upper : place < min (source.lineEnd index) limit) :
      source.masked[place]? ≠ some 10 :=
    returns.reads.ne_newline (Nat.le_trans begun lower) (by omega)
  have ends := covers_min (returns.lineEnd_covers level) (returns.covers_close limit)
  rcases ends.cases with eq | ⟨newline, eq⟩
  · rw [eq]
    exact .inl (returns.charsOf_masked_move inLine)
  · have last : min (source.lineEnd index) limit = source.lineEnd index :=
      Nat.le_antisymm (Nat.min_le_left _ _) (Nat.le_of_not_lt fun before =>
        returns.reads.ne_newline (Nat.le_trans begun le) before newline)
    rw [eq]
    rcases returns.lineEnd_cases level with same | ⟨-, blank, -⟩
    · rw [last, same] at eq
      omega
    · refine .inr (returns.charsOf_masked_concat le first inLine newline ?_)
      rw [last, blank]

/-- What is left of a line up to a limit stays as it is, but for a blank at its end. -/
theorem segment?_padded (inFile : index < source.size) (before : index ≤ limit) :
    Option.Rel Header.Padded (source.segment? index limit)
      (returned.segment? (returns.move index) (returns.close limit)) := by
  have begins := returns.covers_move index
  have level := begins.lineOf_eq
  have onLine := returns.le_lineEnd (Nat.le_of_lt inFile)
  have ends := covers_min (returns.lineEnd_covers level) (returns.covers_close limit)
  have le : index ≤ min (source.lineEnd index) limit := by omega
  have le' := Nat.le_trans (returns.move_le_move.2 le) ends.1
  rw [segment?, segment?, Nat.max_eq_left le, Nat.max_eq_left le', cut?, cut?, begins.isBoundary_masked,
    ends.isBoundary_masked, decide_eq_true le, decide_eq_true le']
  split
  next whole =>
    simp only [Bool.true_and, Bool.and_eq_true] at whole
    exact .some (charsOf_padded level (returns.reads.lineStart_le index) le whole.1)
  next => exact .none

end Segments

/-! ## Braces -/

section Braces

variable {returns} {index index' : Nat}

/-- A line break and what comes before it. -/
theorem Covers.masked_newline (covers : returns.Covers index index')
    (newline : source.masked[index]? = some 10) :
    ∃ b, returned.masked[index']? = some b ∧ (b = 10 ∨ b = 13 ∨ b = 32) := by
  obtain ⟨⟨b, kind, byte⟩, next⟩ := returns.masked_newline newline
  rcases covers.cases with rfl | ⟨-, rfl⟩
  · exact ⟨b, byte, .inr kind⟩
  · exact ⟨10, next, .inl rfl⟩

variable (returns) in
/-- A search that passes over a line break goes on where the next line starts. -/
theorem search_move {α : Type} (search : Nat → α) (newline : source.masked[index]? = some 10)
    (passes : ∀ place, returns.Covers index place → search place = search (place + 1)) :
    search (returns.move index) = search (returns.move (index + 1)) := by
  rw [returns.move_succ_of_newline newline, passes _ (returns.covers_move index),
    passes _ (returns.covers_newline newline)]

/-- No byte but a line break is another one where it has gone. -/
theorem Covers.byteAt_beq (covers : returns.Covers index index') {b : UInt8}
    (visible : b ≠ 10 ∧ b ≠ 13 ∧ b ≠ 32) : (returned.byteAt index' == b) = (source.byteAt index == b) := by
  have read {file : Source} {place : Nat} {c : UInt8} (byte : file.masked[place]? = some c) :
      file.byteAt place = c := by
    rw [byteAt, Array.getD_eq_getD_getElem?, byte]
    rfl
  by_cases newline : source.masked[index]? = some 10
  · obtain ⟨c, byte, kind⟩ := covers.masked_newline newline
    rw [read newline, read byte, beq_eq_false_iff_ne.2 (Ne.symm visible.1), beq_eq_false_iff_ne]
    rintro rfl
    rcases kind with same | same | same
    · exact visible.1 same
    · exact visible.2.1 same
    · exact visible.2.2 same
  · rw [covers.eq newline, returns.byteAt_move newline]

theorem codeLineAfter?_covers (covers : returns.Covers index index') :
    returned.codeLineAfter? index' = (source.codeLineAfter? index).map returns.move := by
  refine returns.find?_move fun start _ => ?_
  rw [returns.allBlank_maskedLine (returns.covers_move start).lineOf_eq,
    decide_eq_decide.2 (covers.lt_move_iff start)]

theorem braceAfter?_covers (covers : returns.Covers index index') (sameLine : Option Nat) :
    returned.braceAfter? index' (sameLine.map returns.move) =
      (source.braceAfter? index sameLine).map returns.move := by
  cases sameLine with
  | some brace => rfl
  | none =>
      rw [Option.map_none, braceAfter?, braceAfter?, codeLineAfter?_covers covers]
      cases found : source.codeLineAfter? index with
      | none => rfl
      | some start =>
          have member := (codeLineAfter?_spec returns.reads found).1
          have level := (returns.covers_move start).lineOf_eq
          have place := returns.indent_covers level
          rw [returns.lineStart_eq level, returns.reads.lineStart_of_mem member] at place
          simp only [Option.map_some, Option.bind_eq_bind, Option.bind_some,
            place.byteAt_beq (b := 123) (by decide)]
          split
          next brace =>
            have byte := getElem?_of_byteAt (beq_iff_eq.1 brace) (by decide)
            rw [place.eq (by rw [byte]; decide)]
            rfl
          next => rfl

variable (returns) in
theorem indent_move_brace (byte : source.masked[index]? = some 125) :
    returned.indent (returns.move index) = source.indent index := by
  obtain ⟨c, member, code⟩ := returns.reads.mem_maskedLine byte (by decide) (by decide)
  obtain rfl : c = '\x7d' := Char.ext (UInt32.toNat_inj.1 code)
  exact returns.indent_eq (returns.covers_move index).lineOf_eq member rfl

variable (returns) in
theorem leadsLine_move (depth : Nat) (byte : source.masked[index]? = some 125) :
    returned.leadsLine depth (returns.move index) = source.leadsLine depth index := by
  rw [leadsLine, leadsLine, returns.indent_move_brace byte,
    returns.lineStart_eq (returns.covers_move index).lineOf_eq,
    ← returns.move_lineStart_add (returns.reads.between_indent index).2]
  rw [Bool.eq_iff_iff, Bool.and_eq_true, Bool.and_eq_true, beq_iff_eq, beq_iff_eq, returns.move_inj]

variable (returns) in
theorem leadingBrace?_move (brace margin : Nat) :
    returned.leadingBrace? (returns.move brace) margin =
      (source.leadingBrace? brace margin).map returns.move := by
  have code {start : Nat} (member : start ∈ source.lineStarts) :
      returns.Covers (start + source.indent start)
        (returns.move start + returned.indent (returns.move start)) := by
    have level := (returns.covers_move start).lineOf_eq
    have place := returns.indent_covers level
    rwa [returns.lineStart_eq level, returns.reads.lineStart_of_mem member] at place
  refine leadingBrace?_map (returns.find?_move fun start member => ?_) fun start member closes => ?_
  · rw [closesAt, closesAt, (code member).byteAt_beq (by decide),
      decide_eq_decide.2 returns.move_lt_move]
    congr 1
    cases closes : source.byteAt (start + source.indent start) == 125 with
    | false => rfl
    | true =>
        have byte := getElem?_of_byteAt (beq_iff_eq.1 closes) (by decide)
        rw [(code member).eq (by rw [byte]; decide), returns.indent_move_brace byte]
  · exact (code member).eq (by rw [byte_of_closesAt closes]; decide)

variable (returns) in
/-- What following braces has found, moved. -/
def moveFound : Sum Nat (Option Nat) → Sum Nat (Option Nat) :=
  Sum.map returns.move (Option.map returns.move)

variable (returns) in
theorem closingFrom_move (braceLine margin : Nat) {depth index : Nat} {settled : Option Nat}
    {bytes : List UInt8} (here : source.masked.toList.drop index = bytes) :
    returned.closingFrom braceLine margin depth (settled.map returns.move) (returns.move index)
        (returned.masked.toList.drop (returns.move index)) =
      returns.moveFound (source.closingFrom braceLine margin depth settled index bytes) := by
  induction bytes generalizing depth settled index with
  | nil =>
      have ended : returned.masked.toList.drop (returns.move index) = [] := by
        rw [List.drop_eq_nil_iff, Array.length_toList] at here ⊢
        exact Nat.le_trans (Nat.le_of_eq returns.size_move) (returns.move_le_move.2 here)
      rw [ended]
      rfl
  | cons b rest ih =>
      obtain ⟨byte, tail⟩ := drop_eq_cons here
      -- A line break takes one step more, over the byte before it, which is no brace.
      by_cases newline : b = 10
      · subst newline
        have pass := returns.search_move (fun place => returned.closingFrom braceLine margin depth
          (settled.map returns.move) place (returned.masked.toList.drop place)) byte fun place covers => by
            obtain ⟨c, blank, kind⟩ := covers.masked_newline byte
            rw [drop_of_getElem? blank, closingFrom]
            rcases kind with rfl | rfl | rfl <;> rfl
        rw [pass, ih tail]
        rfl
      · have other : source.masked[index]? ≠ some 10 := by
          rw [byte]
          exact fun same => newline (Option.some.inj same)
        have byte' := byte
        rw [← returns.masked_move other] at byte'
        have next := returns.move_succ_of_ne other
        have go (depth : Nat) (settled : Option Nat) :
            returned.closingFrom braceLine margin depth (settled.map returns.move)
                (returns.move index + 1) (returned.masked.toList.drop (returns.move index + 1)) =
              returns.moveFound (source.closingFrom braceLine margin depth settled (index + 1) rest) := by
          rw [← ih tail, next]
        rw [drop_of_getElem? byte']
        refine closingFrom_cons_map go fun closing => ?_
        rw [closing] at byte
        rw [(returns.covers_move index).lineOf_eq]
        exact ⟨next, rfl, returns.leadsLine_move margin byte⟩

variable (returns) in
theorem blockEnd_move (brace margin : Nat) :
    returned.blockEnd (returns.move brace) margin = returns.move (source.blockEnd brace margin) := by
  have found := @closingFrom_move _ _ returns (source.lineOf brace) margin 0 brace none _ rfl
  refine blockEnd_map ?_ (returns.leadingBrace?_move brace margin)
    (fun place byte => returns.move_succ_of_ne (by rw [byte]; decide)) returns.size_move
  rwa [(returns.covers_move brace).lineOf_eq]

end Braces

/-! ## Parentheses and comments -/

section Searches

variable {index index' : Nat}

omit returns in
theorem closingParen?_skip {bytes : Array UInt8} {place : Nat} {b : UInt8} (byte : bytes[place]? = some b)
    (other : b ≠ 40 ∧ b ≠ 41) (depth limit : Nat) :
    closingParen? depth place (bytes.extract place limit).toList =
      closingParen? depth (place + 1) (bytes.extract (place + 1) limit).toList := by
  rcases Nat.lt_or_ge place limit with inside | outside
  · rw [extract_eq_cons byte inside, closingParen?, if_neg (mt beq_iff_eq.1 other.1),
      if_neg (mt beq_iff_eq.1 other.2)]
  · rw [extract_eq_nil outside, extract_eq_nil (by omega)]
    rfl

theorem closingParen?_move (limit : Nat) {depth : Nat} :
    closingParen? depth (returns.move index)
        (returned.masked.extract (returns.move index) (returns.close limit)).toList =
      (closingParen? depth index (source.masked.extract index limit).toList).map returns.move := by
  have pass {index : Nat} (newline : source.masked[index]? = some 10) (depth : Nat) :=
    returns.search_move (fun place => closingParen? depth place
      (returned.masked.extract place (returns.close limit)).toList) newline fun place covers => by
        obtain ⟨b, byte, kind⟩ := covers.masked_newline newline
        exact closingParen?_skip byte (by rcases kind with rfl | rfl | rfl <;> decide) depth _
  induction size : limit - index generalizing depth index with
  | zero =>
      have outside := Nat.le_of_sub_eq_zero size
      have nothing {place : Nat} (late : returns.close limit ≤ place) (depth : Nat) :
          closingParen? depth place
            (returned.masked.extract place (returns.close limit)).toList = none := by
        rw [extract_eq_nil late]
        rfl
      have le := returns.move_le_move.2 (Nat.add_le_add_right outside 1)
      rw [extract_eq_nil outside]
      by_cases newline : source.masked[index]? = some 10
      · exact (pass newline depth).trans (nothing (by rw [close]; omega) depth)
      · rw [returns.move_succ_of_ne newline] at le
        exact nothing (by rw [close]; omega) depth
  | succ size ih =>
      cases byte : source.masked[index]? with
      | none =>
          have byte' := byte
          rw [← returns.masked_move (by rw [byte]; nofun)] at byte'
          rw [extract_eq_nil_of_none byte, extract_eq_nil_of_none byte']
          rfl
      | some b =>
          by_cases newline : b = 10
          · subst newline
            rw [closingParen?_skip byte (by decide), ← ih (by omega)]
            exact pass byte depth
          · have other : source.masked[index]? ≠ some 10 := by
              rw [byte]
              exact fun same => newline (Option.some.inj same)
            have byte' := byte
            rw [← returns.masked_move other] at byte'
            have inside : returns.move index < returns.close limit :=
              Nat.lt_of_lt_of_le (returns.move_lt_move.2 (by omega)) (returns.covers_close limit).1
            have go (depth : Nat) : closingParen? depth (returns.move index + 1)
                (returned.masked.extract (returns.move index + 1) (returns.close limit)).toList =
                  (closingParen? depth (index + 1)
                    (source.masked.extract (index + 1) limit).toList).map returns.move := by
              rw [← ih (by omega), returns.move_succ_of_ne other]
            rw [extract_eq_cons byte (by omega), extract_eq_cons byte' inside]
            exact closingParen?_cons_map go

theorem endsComment_move (other : source.masked[index]? ≠ some 10) :
    returned.EndsComment (returns.move index) ↔ source.EndsComment index := by
  rw [EndsComment, EndsComment, returns.text_move other, ← returns.move_succ_of_ne other]
  by_cases newline : source.masked[index + 1]? = some 10
  · obtain ⟨⟨b, kind, byte⟩, -⟩ := returns.text_newline newline
    rw [byte, (returns.reads.newline_iff _).2 newline]
    rcases kind with rfl | rfl <;> simp
  · rw [returns.text_move newline]

variable {returns} in
theorem Covers.not_endsComment (covers : returns.Covers index index')
    (newline : source.masked[index]? = some 10) : ¬ returned.EndsComment index' := by
  obtain ⟨⟨b, kind, byte⟩, next⟩ := returns.text_newline newline
  rcases covers.cases with rfl | ⟨-, rfl⟩
  · rw [EndsComment, byte]
    rcases kind with rfl | rfl <;> simp
  · rw [EndsComment, next]
    simp

theorem text_size_move : returned.text.size = returns.move source.text.size := by
  rw [returns.reads.text_size_eq, returns.reads'.text_size_eq, returns.size_move]

theorem commentEnd?_move : returned.commentEnd? (returns.move index) =
    (source.commentEnd? index).map returns.move := by
  induction size : source.text.size - index generalizing index with
  | zero =>
      have outside := Nat.le_of_sub_eq_zero size
      rw [commentEnd?_of_size_le outside, commentEnd?_of_size_le]
      · rfl
      · rw [returns.text_size_move]
        exact returns.move_le_move.2 outside
  | succ size ih =>
      have inside : index < source.text.size := by omega
      have inside' {place : Nat} (covers : returns.Covers index place) : place < returned.text.size := by
        rwa [returns.text_size_move, covers.lt_move_iff]
      by_cases newline : source.masked[index]? = some 10
      · have other : ¬ source.EndsComment index := by
          rw [EndsComment, (returns.reads.newline_iff index).2 newline]
          simp
        rw [commentEnd?_succ inside other, ← ih (by omega)]
        exact returns.search_move returned.commentEnd? newline fun place covers =>
          commentEnd?_succ (inside' covers) (covers.not_endsComment newline)
      · have same := returns.endsComment_move newline
        by_cases ends : source.EndsComment index
        · have next : source.masked[index + 1]? ≠ some 10 := by
            rw [Ne, ← returns.reads.newline_iff, ends.2]
            simp
          rw [commentEnd?_of_ends ends, commentEnd?_of_ends (same.2 ends), Option.map_some,
            returns.move_succ_of_ne next, returns.move_succ_of_ne newline]
        · rw [commentEnd?_succ inside ends,
            commentEnd?_succ (inside' (returns.covers_move index)) (mt same.1 ends), ← ih (by omega),
            returns.move_succ_of_ne newline]

variable {returns} in
theorem commentEnd?_covers (covers : returns.Covers index index') :
    returned.commentEnd? index' = (source.commentEnd? index).map returns.move := by
  rw [← returns.commentEnd?_move]
  rcases covers.cases with rfl | ⟨newline, rfl⟩
  · rfl
  · have here := returns.covers_move index
    have inside : returns.move index < returned.text.size := by
      rw [returns.text_size_move, returns.move_lt_move, returns.reads.text_size_eq]
      exact (Array.getElem?_eq_some_iff.1 newline).1
    exact (commentEnd?_succ inside (here.not_endsComment newline)).symm

end Searches

end Returning
end Source
end DebugBridge
