import DebugBridge.Proofs.Script.LineTable
import DebugBridge.Proofs.Script.Offsets

/-!
# Extents

A block opens at a brace and ends just past one, or with the file.  What opens at a place of a scan
has one of five shapes, and each of them says where the construct stands, where its inside lies and
where the scan goes on.
-/

namespace DebugBridge
namespace Source

open Text Mask

/-! ## Ends of blocks -/

/-- An offset just past a closing brace that stands at `low` or after it. -/
def ClosesAfter (source : Source) (low stop : Nat) : Prop :=
  ∃ place, low ≤ place ∧ source.masked[place]? = some 125 ∧ stop = place + 1

/-- A closing brace at which a block may end, where it has come to depth zero: on the line of the
opening brace or before all else on its own line. -/
def EndsBlock (source : Source) (braceLine margin place : Nat) : Prop :=
  source.masked[place]? = some 125 ∧
    (source.lineOf place = braceLine ∨ source.leadsLine margin place = true)

section Closing

variable {source : Source} {braceLine margin low : Nat}

theorem toList_extract (bytes : Array UInt8) (index : Nat) :
    (bytes.extract index bytes.size).toList = bytes.toList.drop index := by
  rw [Array.toList_extract, List.extract_eq_take_drop, List.take_of_length_le]
  rw [List.length_drop, Array.length_toList]

theorem toList_extract_size (index : Nat) :
    (source.masked.extract index source.size).toList = source.masked.toList.drop index :=
  toList_extract source.masked index

/-- The bytes from an offset on, taken apart. -/
theorem drop_eq_cons {index : Nat} {b : UInt8} {rest : List UInt8}
    (bytes : source.masked.toList.drop index = b :: rest) :
    source.masked[index]? = some b ∧ source.masked.toList.drop (index + 1) = rest := by
  constructor
  · have head := congrArg List.head? bytes
    rwa [List.head?_drop, Array.getElem?_toList] at head
  · have tail := congrArg List.tail bytes
    rwa [List.tail_drop] at tail

/-- What following braces from an offset on may find. -/
def Finds (source : Source) (braceLine margin low index : Nat) : Sum Nat (Option Nat) → Prop
  | .inl stop => ∃ place, index ≤ place ∧ stop = place + 1 ∧ source.EndsBlock braceLine margin place
  | .inr settled => ∀ stop, settled = some stop → source.ClosesAfter low stop

theorem Finds.earlier {index later : Nat} {found : Sum Nat (Option Nat)} (le : index ≤ later)
    (finds : source.Finds braceLine margin low later found) :
    source.Finds braceLine margin low index found := by
  cases found with
  | inl stop =>
      obtain ⟨place, after, ends⟩ := finds
      exact ⟨place, Nat.le_trans le after, ends⟩
  | inr settled => exact finds

theorem finds_closingFrom (bytes : List UInt8) (depth : Nat) (settled : Option Nat) (index : Nat)
    (here : source.masked.toList.drop index = bytes) (after : low ≤ index)
    (before : ∀ stop, settled = some stop → source.ClosesAfter low stop) :
    source.Finds braceLine margin low index
      (source.closingFrom braceLine margin depth settled index bytes) := by
  induction bytes generalizing depth settled index with
  | nil => exact before
  | cons b rest ih =>
      obtain ⟨byte, tail⟩ := drop_eq_cons here
      have go (depth : Nat) (settled : Option Nat)
          (before : ∀ stop, settled = some stop → source.ClosesAfter low stop) :=
        (ih depth settled (index + 1) tail (Nat.le_succ_of_le after) before).earlier
          (Nat.le_succ index)
      unfold closingFrom
      split
      · exact go _ _ before
      · split
        next closing =>
          rw [Bool.and_eq_true, beq_iff_eq] at closing
          obtain ⟨rfl, -⟩ := closing
          split
          next ends =>
            rw [Bool.or_eq_true, beq_iff_eq] at ends
            exact ⟨index, Nat.le_refl _, rfl, byte, ends⟩
          next =>
            refine go _ _ fun stop found => ?_
            cases settled with
            | none =>
                cases found
                exact ⟨index, after, byte, rfl⟩
            | some first =>
                cases found
                exact before _ rfl
        next =>
          split
          · exact go _ _ before
          · exact go _ _ before

/-- A byte other than zero is one of the masked text. -/
theorem getElem?_of_byteAt {index : Nat} {b : UInt8} (byte : source.byteAt index = b)
    (other : b ≠ 0) : source.masked[index]? = some b := by
  rw [byteAt, Array.getD_eq_getD_getElem?] at byte
  cases found : source.masked[index]? with
  | none =>
      rw [found] at byte
      exact absurd byte.symm other
  | some c =>
      rw [found] at byte
      exact congrArg some byte

/-- A block ends just past a closing brace, or with the file. -/
theorem blockEnd_cases (source : Source) (brace margin : Nat) :
    source.ClosesAfter brace (source.blockEnd brace margin) ∨
      source.blockEnd brace margin = source.size := by
  have finds : source.Finds (source.lineOf brace) margin brace brace
      (source.closingFrom (source.lineOf brace) margin 0 none brace
        (source.masked.toList.drop brace)) :=
    finds_closingFrom _ 0 none brace rfl (Nat.le_refl _) (by rintro _ ⟨⟩)
  unfold blockEnd
  rw [toList_extract_size]
  dsimp only
  split
  next stop found =>
    rw [found] at finds
    obtain ⟨place, le, rfl, byte, -⟩ := finds
    exact .inl ⟨place, le, byte, rfl⟩
  next settled found =>
    rw [found] at finds
    cases candidate : ((source.lineStarts.filter (brace < ·)).map fun start =>
        start + source.indent start).find? fun index =>
          source.byteAt index == 125 && source.indent index ≤ margin with
    | some index =>
        have member := Array.mem_of_find?_eq_some candidate
        have holds := Array.find?_some candidate
        simp only [Array.mem_map, Array.mem_filter, decide_eq_true_eq] at member
        rw [Bool.and_eq_true, beq_iff_eq] at holds
        obtain ⟨start, ⟨_, after⟩, rfl⟩ := member
        exact .inl ⟨start + source.indent start, by omega,
          getElem?_of_byteAt holds.1 (by decide), rfl⟩
    | none =>
        cases settled with
        | none => exact .inr rfl
        | some stop => exact .inl (finds stop rfl)

end Closing

/-! ## Braces and parentheses -/

section Places

variable {source : Source} {text masked : List Char} (reads : source.Reads text masked)

/-- A parenthesis is closed by one in the bytes from there on. -/
theorem closingParen?_spec {bytes : List UInt8} {depth index paren : Nat}
    (found : closingParen? depth index bytes = some paren) :
    ∃ place, paren = index + place ∧ bytes[place]? = some 41 := by
  induction bytes generalizing depth index with
  | nil => cases found
  | cons b rest ih =>
      have go {depth : Nat} (found : closingParen? depth (index + 1) rest = some paren) :
          ∃ place, paren = index + place ∧ (b :: rest)[place]? = some 41 := by
        obtain ⟨place, rfl, byte⟩ := ih found
        exact ⟨place + 1, by omega, byte⟩
      unfold closingParen? at found
      split at found
      · exact go found
      · split at found
        next closing =>
          split at found
          · cases found
            exact ⟨0, rfl, congrArg some (beq_iff_eq.1 closing)⟩
          · exact go found
        next => exact go found

/-- A comment ends just past a slash. -/
theorem commentEndFrom_spec {bytes : List UInt8} {index stop : Nat}
    (found : commentEndFrom index bytes = some stop) :
    ∃ place, stop = index + place + 2 ∧ bytes[place + 1]? = some 47 := by
  fun_induction commentEndFrom index bytes with
  | case1 index rest =>
      cases found
      exact ⟨0, rfl, rfl⟩
  | case2 index b rest _ ih =>
      obtain ⟨place, rfl, byte⟩ := ih found
      exact ⟨place + 1, by omega, byte⟩
  | case3 => cases found

/-- A parenthesis that closes one in a stretch of the masked text stands in that stretch. -/
theorem closingParen?_masked {start limit paren : Nat}
    (found : closingParen? 0 start (source.masked.extract start limit).toList = some paren) :
    start ≤ paren ∧ paren < limit ∧ source.masked[paren]? = some 41 := by
  obtain ⟨place, rfl, byte⟩ := closingParen?_spec found
  rw [Array.getElem?_toList, Array.getElem?_extract] at byte
  split at byte
  next inside => exact ⟨by omega, by omega, byte⟩
  next => cases byte

include reads

/-- An ASCII character of a stretch stands in the masked text. -/
theorem getElem?_of_standsAt {front part back : List Char} (hidden : masked = front ++ part ++ back)
    {offset : Nat} {c : Char} (stands : Header.StandsAt part offset c) (ascii : c.toNat < 0x80) :
    source.masked[byteLength front + offset]? = some (UInt8.ofNat c.toNat) ∧
      offset < byteLength part := by
  obtain ⟨before, after, rfl, rfl⟩ := stands
  have split : masked = (front ++ before) ++ c :: (after ++ back) := by simp [hidden]
  have place := reads.getElem?_masked split ascii
  rw [byteLength_append] at place
  refine ⟨place, ?_⟩
  rw [byteLength_append, byteLength_cons]
  have := c.utf8Size_pos
  omega

/-- A byte of a stretch is an ASCII character of it. -/
theorem standsAt_of_byte {front part back : List Char} (hidden : masked = front ++ part ++ back)
    {offset : Nat} {b : UInt8} (byte : source.masked[byteLength front + offset]? = some b)
    (ascii : b.toNat < 0x80) (inside : offset < byteLength part) :
    ∃ c, Header.StandsAt part offset c ∧ c.toNat = b.toNat := by
  rw [reads.masked_eq, hidden, List.getElem?_toArray, utf8_append, utf8_append,
    List.append_assoc, List.getElem?_append_right (by rw [length_utf8]; omega), length_utf8,
    Nat.add_sub_cancel_left, List.getElem?_append_left (by rwa [length_utf8])] at byte
  obtain ⟨before, c, after, split, place, code⟩ := exists_split_of_byte byte ascii
  exact ⟨c, ⟨before, after, split, place.symm⟩, code⟩

omit reads in
/-- The code of a stretch begins no later than at a character that is neither blank nor tab. -/
theorem codeStart_le {part : List Char} {offset : Nat} {c : Char}
    (stands : Header.StandsAt part offset c) (other : isIndent c = false) (pos : Nat) :
    codeStart pos part ≤ pos + offset := by
  obtain ⟨before, after, rfl, rfl⟩ := stands
  rw [codeStart, List.takeWhile_append]
  have short := Reads.codeStart_le_add 0 before
  rw [codeStart] at short
  split
  next whole =>
    rw [List.takeWhile_cons_of_neg (by simp [other]), List.append_nil]
    omega
  next => omega

end Places

/-! ## Locations and braces -/

section Found

variable {source : Source}

theorem cut?_spec {bytes : Array UInt8} {start stop : Nat} {part : List Char}
    (found : cut? bytes start stop = some part) :
    start ≤ stop ∧ isBoundary bytes start = true ∧ isBoundary bytes stop = true ∧
      part = charsOf bytes start stop := by
  unfold cut? at found
  split at found
  next whole =>
    rw [Bool.and_eq_true, Bool.and_eq_true, decide_eq_true_eq] at whole
    cases found
    exact ⟨whole.1.1, whole.1.2, whole.2, rfl⟩
  next => cases found

theorem cut?_eq {bytes : Array UInt8} {start stop : Nat} (le : start ≤ stop)
    (first : isBoundary bytes start = true) (last : isBoundary bytes stop = true) :
    cut? bytes start stop = some (charsOf bytes start stop) := by
  rw [cut?, if_pos]
  rw [Bool.and_eq_true, Bool.and_eq_true, decide_eq_true_eq]
  exact ⟨⟨le, first⟩, last⟩

theorem location?_spec {start stop : Nat} {location : Location}
    (found : source.location? start stop = some location) :
    location.start = start ∧ location.stop = max (min stop source.size) start ∧
      location.first = source.position start ∧
      location.last = source.position (max (location.stop - 1) start) ∧
      isBoundary source.text location.start = true ∧
      isBoundary source.text location.stop = true := by
  simp only [location?, Option.pure_def, Option.bind_eq_bind, Option.bind_eq_some_iff,
    Option.some.injEq] at found
  obtain ⟨text, found, rfl⟩ := found
  obtain ⟨_, first, last, _⟩ := cut?_spec found
  exact ⟨rfl, rfl, rfl, rfl, first, last⟩

/-- A brace on a later line begins the first one of them that has code on it. -/
theorem braceAfter?_none {index brace : Nat} (found : source.braceAfter? index none = some brace) :
    ∃ start, source.codeLineAfter? index = some start ∧ brace = start + source.indent start ∧
      source.masked[brace]? = some 123 := by
  simp only [braceAfter?, Option.bind_eq_bind, Option.bind_eq_some_iff] at found
  obtain ⟨start, line, found⟩ := found
  split at found
  next byte =>
    cases found
    exact ⟨start, line, rfl, getElem?_of_byteAt (beq_iff_eq.1 byte) (by decide)⟩
  next => cases found

variable {text masked : List Char} (reads : source.Reads text masked)

include reads

/-- The first line with code after an offset. -/
theorem codeLineAfter?_spec {index start : Nat} (found : source.codeLineAfter? index = some start) :
    start ∈ source.lineStarts ∧ index < start ∧
      ∀ other ∈ source.lineStarts, index < other →
        Text.allBlank (source.maskedLine other) = false → start ≤ other := by
  have sorted := reads.pairwise_lineStarts
  rw [codeLineAfter?, ← Array.find?_toList, List.find?_eq_some_iff_append] at found
  obtain ⟨holds, before, after, split, blank⟩ := found
  rw [Bool.and_eq_true, decide_eq_true_eq] at holds
  refine ⟨?_, holds.1, fun other member later code => ?_⟩
  · rw [← Array.mem_toList_iff, split]
    simp
  · rw [split] at sorted
    rw [← Array.mem_toList_iff, split] at member
    rcases List.mem_append.1 member with first | last
    · have passed := blank other first
      simp [later, code] at passed
    · rcases List.mem_cons.1 last with rfl | last
      · exact Nat.le_refl _
      · exact Nat.le_of_lt ((List.pairwise_cons.1 (List.pairwise_append.1 sorted).2.1).1 other last)

/-- The part of the masked text that a scan looks at. -/
theorem exists_segment {pos limit : Nat} {segment : List Char}
    (found : source.segment? pos limit = some segment) :
    ∃ front back, masked = front ++ segment ++ back ∧ byteLength front = pos ∧
      byteLength front + byteLength segment = max (min (source.lineEnd pos) limit) pos := by
  obtain ⟨le, first, last, rfl⟩ := cut?_spec found
  obtain ⟨front, part, back, hidden, start, stop, chars⟩ := reads.exists_part_masked le first last
  rw [chars]
  exact ⟨front, back, hidden, start, stop⟩

end Found

end Source
end DebugBridge
