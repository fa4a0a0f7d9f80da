import DebugBridge.Proofs.Script.Opening

/-!
# Nesting of blocks

What a scan finds in a block starts after the brace that opens the block.  Whether it also ends inside
the block depends on how the end of the block was found.  Braces that settle the block of the parent
settle any block inside it no later, if the inner header is indented at least as far; a block whose
braces never settle has an end that was guessed, and a comment ends where its text says, without
regard to the block around it.
-/

namespace DebugBridge

namespace Source

open Text Header

/-- Following braces from an opening one on comes to where its block ends. -/
def Settles (source : Source) (brace margin stop : Nat) : Prop :=
  source.closingFrom (source.lineOf brace) margin 0 none brace (source.masked.toList.drop brace) =
    .inl stop

/-- A child that keeps to the block of its parent: the block ends with the file, or its braces
settle, and then the child neither is a comment over a closing brace nor has a block under a header
that is indented by less than the parent's. -/
def KeepsTo (source : Source) (brace : Nat) (parent : Location) (kind : Kind)
    (location : Location) : Prop :=
  parent.stop = source.size ∨
    source.Settles brace (source.indent parent.start) parent.stop ∧
      (kind = .skip → ∀ place, location.start ≤ place → place < location.stop →
        source.masked[place]? ≠ some 125) ∧
      (kind.braceLine?.isSome → source.indent parent.start ≤ source.indent location.start)

/-- A construct nested in a parent whose block opens at `brace`. -/
structure Nests (source : Source) (brace : Nat) (parent : Location) (kind : Kind)
    (location : Location) : Prop where
  after : brace < location.start
  before : location.start ≤ parent.stop
  inside : source.KeepsTo brace parent kind location → location.stop ≤ parent.stop

/-- The brace that opens the block of a node. -/
structure OpenedBy (source : Source) (kind : Kind) (location : Location) (brace : Nat) : Prop where
  lined : kind.braceLine? = some (source.lineOf brace + 1)
  byte : source.masked[brace]? = some 123
  first : location.start ≤ brace
  stop_eq : location.stop = source.blockEnd brace (source.indent location.start)

/-! ## Blocks inside blocks -/

section Braces

variable {source : Source} {braceLine margin stop : Nat}

theorem leadsLine_of_le {depth deeper index : Nat} (le : depth ≤ deeper)
    (leads : source.leadsLine depth index = true) : source.leadsLine deeper index = true := by
  rw [leadsLine, Bool.and_eq_true, decide_eq_true_eq] at leads ⊢
  exact ⟨leads.1, Nat.le_trans leads.2 le⟩

/-- Following braces to an end goes through every place before it. -/
theorem exists_closingFrom {depth index place : Nat} {settled : Option Nat} {bytes : List UInt8}
    (here : source.masked.toList.drop index = bytes)
    (found : source.closingFrom braceLine margin depth settled index bytes = .inl stop)
    (after : index ≤ place) (before : place < stop) :
    ∃ depth settled, source.closingFrom braceLine margin depth settled place
      (source.masked.toList.drop place) = .inl stop := by
  induction bytes generalizing depth settled index with
  | nil => cases found
  | cons b rest ih =>
      rcases Nat.eq_or_lt_of_le after with rfl | later
      · exact ⟨depth, settled, by rwa [here]⟩
      have tail := (drop_eq_cons here).2
      unfold closingFrom at found
      split at found
      · exact ih tail found later
      · split at found
        · split at found
          · cases found
            omega
          · exact ih tail found later
        · split at found
          · exact ih tail found later
          · exact ih tail found later

theorem lt_of_closingFrom {depth index : Nat} {settled : Option Nat} {bytes : List UInt8}
    (found : source.closingFrom braceLine margin depth settled index bytes = .inl stop) :
    index < stop := by
  induction bytes generalizing depth settled index with
  | nil => cases found
  | cons b rest ih =>
      have go {depth : Nat} {settled : Option Nat} (found : source.closingFrom braceLine margin depth
          settled (index + 1) rest = .inl stop) : index < stop := Nat.lt_of_succ_lt (ih found)
      unfold closingFrom at found
      split at found
      · exact go found
      · split at found
        · split at found
          · cases found
            exact Nat.lt_succ_self index
          · exact go found
        · split at found
          · exact go found
          · exact go found

/-- From a place on, braces settle a block no later than another one that is at least as deep and
has at most its margin. -/
theorem closingFrom_le {innerLine within depth deeper index : Nat} {settled other : Option Nat}
    {bytes : List UInt8}
    (found : source.closingFrom braceLine margin deeper settled index bytes = .inl stop)
    (deep : depth ≤ deeper) (wide : margin ≤ within)
    (same : source.lineOf (stop - 1) = braceLine → source.lineOf (stop - 1) = innerLine) :
    ∃ earlier, source.closingFrom innerLine within depth other index bytes = .inl earlier ∧
      earlier ≤ stop := by
  induction bytes generalizing depth deeper settled other index with
  | nil => cases found
  | cons b rest ih =>
      -- The inner block may end here where the outer one goes on.
      have ends {deeper : Nat} {settled other : Option Nat}
          (found : source.closingFrom braceLine margin deeper settled (index + 1) rest = .inl stop) :
          ∃ earlier, (if source.lineOf index == innerLine || source.leadsLine within index then
              .inl (index + 1)
            else source.closingFrom innerLine within 0 other (index + 1) rest) = .inl earlier ∧
            earlier ≤ stop := by
        split
        · exact ⟨index + 1, rfl, Nat.le_of_lt (lt_of_closingFrom found)⟩
        · exact ih found (Nat.zero_le _)
      unfold closingFrom at found ⊢
      split at found
      next opening =>
        rw [if_pos opening]
        exact ih found (Nat.succ_le_succ deep)
      next notOpening =>
        rw [if_neg notOpening]
        split at found
        next closing =>
          rw [Bool.and_eq_true, beq_iff_eq, beq_iff_eq] at closing
          rw [if_pos (by simp only [closing.1, beq_self_eq_true, Bool.true_and, beq_iff_eq]; omega)]
          split at found
          next outer =>
            cases found
            have inner : (source.lineOf index == innerLine || source.leadsLine within index) = true := by
              rw [Bool.or_eq_true, beq_iff_eq] at outer ⊢
              exact outer.imp same (leadsLine_of_le wide)
            exact ⟨index + 1, if_pos inner, Nat.le_refl _⟩
          next => exact ends found
        next deepClosing =>
          split at found
          next closing =>
            split
            · exact ends found
            · exact ih found (Nat.sub_le_sub_right deep 1)
          next notClosing =>
            rw [if_neg (by simp [notClosing]), if_neg notClosing]
            exact ih found deep

end Braces

section Settled

variable {source : Source} {brace inner margin within stop : Nat}

theorem Settles.blockEnd_eq (settles : source.Settles brace margin stop) :
    source.blockEnd brace margin = stop := by
  rw [blockEnd, toList_extract_size]
  dsimp only
  rw [show source.closingFrom _ _ _ _ _ _ = _ from settles]

theorem Settles.exists_place (settles : source.Settles brace margin stop) :
    ∃ place, brace ≤ place ∧ stop = place + 1 ∧
      source.EndsBlock (source.lineOf brace) margin place := by
  have finds : source.Finds (source.lineOf brace) margin brace brace
      (source.closingFrom (source.lineOf brace) margin 0 none brace
        (source.masked.toList.drop brace)) :=
    finds_closingFrom _ 0 none brace rfl (Nat.le_refl _) (by rintro _ ⟨⟩)
  rw [show source.closingFrom _ _ _ _ _ _ = _ from settles] at finds
  exact finds

/-- Braces that settle a block settle any block inside it, and no later. -/
theorem Settles.of_inside (settles : source.Settles brace margin stop) (after : brace ≤ inner)
    (before : inner < stop) (wide : margin ≤ within) :
    ∃ earlier, source.Settles inner within earlier ∧ earlier ≤ stop := by
  obtain ⟨depth, settled, found⟩ := exists_closingFrom rfl settles after before
  refine closingFrom_le found (Nat.zero_le depth) wide fun last => ?_
  have first := source.lineOf_mono after
  have second := source.lineOf_mono (Nat.le_sub_one_of_lt before)
  omega

end Settled

/-! ## Places in a block -/

section Places

variable {source : Source} {text masked : List Char} (reads : source.Reads text masked)

include reads

omit reads in
theorem blockEnd_le_size (brace margin : Nat) : source.blockEnd brace margin ≤ source.size := by
  rcases source.blockEnd_cases brace margin with ⟨place, -, byte, eq⟩ | eq
  · rw [eq]
    exact (Array.getElem?_eq_some_iff.1 byte).1
  · exact Nat.le_of_eq eq

omit reads in
/-- The location of a construct with a block reaches to the end of the block. -/
theorem location_of_block {start brace margin : Nat} {location : Location}
    (byte : source.masked[brace]? = some 123) (first : start ≤ brace)
    (located : source.location? start (source.blockEnd brace margin) = some location) :
    location.start = start ∧ location.stop = source.blockEnd brace margin := by
  obtain ⟨start_eq, stop_eq, -⟩ := location?_spec located
  have inFile : brace < source.size := (Array.getElem?_eq_some_iff.1 byte).1
  have after : brace < source.blockEnd brace margin := lt_blockEnd (Nat.le_refl brace) inFile
  have before := source.blockEnd_le_size brace margin
  exact ⟨start_eq, by omega⟩

theorem maskedLine_of_same_line {index other : Nat} (lower : source.lineStart index ≤ other)
    (upper : other ≤ source.lineEnd index) : source.maskedLine other = source.maskedLine index := by
  obtain ⟨-, start, stop⟩ := reads.same_line lower upper
  rw [maskedLine, maskedLine, start, stop]

theorem indent_of_same_line {index other : Nat} (lower : source.lineStart index ≤ other)
    (upper : other ≤ source.lineEnd index) : source.indent other = source.indent index := by
  rw [indent, indent, maskedLine_of_same_line reads lower upper]

/-- A closing brace in its line. -/
theorem standsAt_closing {place : Nat} (byte : source.masked[place]? = some 125) :
    StandsAt (source.maskedLine place) (place - source.lineStart place) '\x7d' := by
  obtain ⟨front, back, hidden, start, stop⟩ := reads.exists_maskedLine place
  have first := reads.lineStart_le place
  have last := reads.lt_lineEnd byte (by decide) (by decide)
  have place_eq : byteLength front + (place - source.lineStart place) = place := by omega
  obtain ⟨c, stands, code⟩ :=
    standsAt_of_byte reads hidden (place_eq.symm ▸ byte) (by decide) (by omega)
  have brace : c = '\x7d' := Char.ext (UInt32.toNat_inj.1 code)
  rwa [brace] at stands

/-- Where a line has a closing brace, its code has begun. -/
theorem indent_le_of_closing {place : Nat} (byte : source.masked[place]? = some 125) :
    source.lineStart place + source.indent place ≤ place := by
  have code := codeStart_le (standsAt_closing reads byte) (by decide) (source.lineStart place)
  have first := reads.lineStart_le place
  rw [codeStart] at code
  rw [indent]
  omega

/-- A location is a range of the file. -/
theorem location_range {start stop : Nat} {location : Location}
    (located : source.location? start stop = some location) :
    location.start ≤ location.stop ∧ location.stop ≤ source.size := by
  obtain ⟨start_eq, stop_eq, -, -, -, boundary⟩ := location?_spec located
  refine ⟨by omega, ?_⟩
  rw [← reads.text_size_eq]
  exact le_size_of_isBoundary boundary

omit reads in
/-- A brace that may end a block and stands on a later line than the opening brace leads its line. -/
theorem EndsBlock.leads {brace margin place : Nat}
    (ends : source.EndsBlock (source.lineOf brace) margin place)
    (later : brace < source.lineStart place) (first : source.lineStart brace ≤ brace) :
    place = source.lineStart place + source.indent place := by
  rcases ends.2 with same | leads
  · rw [lineStart, same] at later
    exact absurd first (Nat.not_le.2 later)
  · rw [leadsLine, Bool.and_eq_true, beq_iff_eq] at leads
    exact leads.1

/-- An offset whose line ends before a closing brace is on an earlier line. -/
theorem lt_lineStart {index place : Nat} (byte : source.masked[place]? = some 125)
    (ends : source.lineEnd index ≤ place) (after : index < place) :
    index < source.lineStart place := by
  refine Nat.lt_of_not_le fun before => ?_
  obtain ⟨-, -, same⟩ := reads.same_line before
    (Nat.le_of_lt (Nat.lt_trans after (reads.lt_lineEnd byte (by decide) (by decide))))
  have := reads.lt_lineEnd byte (by decide) (by decide)
  omega

/-- A brace that a header inside a block comes to is inside the block. -/
theorem lt_of_reaches {brace margin place pos inner : Nat}
    (ends : source.EndsBlock (source.lineOf brace) margin place) (after : brace < pos)
    (byte : source.masked[inner]? = some 123) (reached : source.Reaches pos place inner) :
    inner < place := by
  rcases reached with before | ⟨index, later, before, line, found⟩
  · exact before
  obtain ⟨start, next, rfl, -⟩ := braceAfter?_none found
  obtain ⟨member, -, first⟩ := codeLineAfter?_spec reads next
  have leading := lt_lineStart reads ends.1 line before
  have inLine := reads.lt_lineEnd ends.1 (by decide) (by decide)
  -- The line of the closing brace has code, so the next line with code is no later than it.
  have code : allBlank (source.maskedLine place) = false := by
    obtain ⟨front, back, split, -⟩ := standsAt_closing reads ends.1
    rw [split, allBlank, List.all_append, List.all_cons, show isBlank '\x7d' = false by decide,
      Bool.false_and, Bool.and_false]
  have whole := reads.lineStart_le_lineEnd place
  rw [← maskedLine_of_same_line reads (Nat.le_refl _) whole] at code
  have le := first (source.lineStart place) (reads.lineStart_mem place) leading code
  rcases Nat.eq_or_lt_of_le le with rfl | lt
  · -- On that line a brace that ends the block comes first.
    have place_eq := ends.leads (Nat.lt_trans after (Nat.lt_of_le_of_lt later leading))
      (reads.lineStart_le brace)
    rw [indent_of_same_line reads (Nat.le_refl _) whole, ← place_eq, ends.1] at byte
    cases byte
  · have inside := (reads.between_indent start).2
    rw [reads.lineStart_of_mem member] at inside
    have earlier := reads.lineEnd_lt (reads.lineStart_mem place) lt
    have last := reads.lineStart_le place
    omega

/-- A line of code inside a block ends inside the block. -/
theorem lineEnd_le_of_code {brace margin place pos : Nat} {segment : List Char}
    (ends : source.EndsBlock (source.lineOf brace) margin place) (after : brace < pos)
    (before : pos < place) (begins : source.lineStart pos = pos)
    (looked : source.segment? pos place = some segment) (code : allBlank segment = false) :
    source.lineEnd pos ≤ place := by
  refine Nat.le_of_not_lt fun beyond => ?_
  obtain ⟨-, start, stop⟩ := reads.same_line (by omega) (Nat.le_of_lt beyond)
  have leads := ends.leads (by omega) (reads.lineStart_le brace)
  obtain ⟨front, back, hidden, first, last⟩ := exists_segment reads looked
  obtain ⟨front', back', hidden', first', last'⟩ := reads.exists_maskedLine pos
  obtain ⟨more, whole⟩ := exists_append_of_byteLength_le (hidden.symm.trans hidden')
    (by omega) (by omega)
  rw [allBlank, List.all_eq_false] at code
  obtain ⟨c, member, visible⟩ := code
  obtain ⟨before, after, rfl⟩ := List.append_of_mem member
  have stands : StandsAt (source.maskedLine pos) (byteLength before) c :=
    ⟨before, after ++ more, by rw [whole]; simp, rfl⟩
  have other : isIndent c = false := by
    rw [← Bool.not_eq_true]
    exact fun indent => visible (Layout.isBlank_of_isIndent indent)
  have code := codeStart_le stands other 0
  have indent_eq : source.indent place = source.indent pos :=
    indent_of_same_line reads (by omega) (by omega)
  rw [codeStart] at code
  rw [indent_eq, indent] at leads
  rw [byteLength_append, byteLength_cons] at last
  have := c.utf8Size_pos
  omega

/-- The code of a line inside a block begins inside the block. -/
theorem add_indent_le_of_closing {place pos : Nat} (byte : source.masked[place]? = some 125)
    (begins : source.lineStart pos = pos) (before : pos < place) :
    pos + source.indent pos ≤ place := by
  have code := (reads.between_indent pos).2
  rw [begins] at code
  rcases Nat.lt_or_ge place (source.lineEnd pos) with inLine | beyond
  · have lower : source.lineStart pos ≤ place := begins.symm ▸ Nat.le_of_lt before
    have start := (reads.same_line lower (Nat.le_of_lt inLine)).2.1
    have inside := indent_le_of_closing reads byte
    rwa [start, begins, indent_of_same_line reads lower (Nat.le_of_lt inLine)] at inside
  · exact Nat.le_trans code beyond

/-- A segment begins its code on its own line. -/
theorem codeStart_of_segment {pos limit : Nat} {segment : List Char} (before : pos < limit)
    (looked : source.segment? pos limit = some segment) :
    pos ≤ codeStart pos segment ∧ codeStart pos segment ≤ limit ∧
      source.indent (codeStart pos segment) = source.indent pos := by
  obtain ⟨front, back, -, start, stop⟩ := exists_segment reads looked
  have first : pos ≤ codeStart pos segment := Nat.le_add_right _ _
  have last := Reads.codeStart_le_add pos segment
  refine ⟨first, by omega, ?_⟩
  rcases Nat.le_total pos (source.lineEnd pos) with inside | beyond
  · exact indent_of_same_line reads (Nat.le_trans (reads.lineStart_le pos) first) (by omega)
  · rw [show codeStart pos segment = pos by omega]

/-! ## Children of a block -/

variable {kind parentKind : Kind} {location parent : Location} {brace : Nat}

/-- A block inside a settled one, under a header indented at least as far, ends inside it. -/
theorem stop_le_of_settles {margin within start pos inner stop : Nat}
    (settles : source.Settles brace margin stop) (after : brace < pos) (first : pos ≤ start)
    (byte : source.masked[inner]? = some 123) (le : start ≤ inner)
    (reached : source.Reaches pos (stop - 1) inner) (wide : margin ≤ within)
    (located : source.location? start (source.blockEnd inner within) = some location) :
    location.stop ≤ stop := by
  obtain ⟨place, -, rfl, ends⟩ := settles.exists_place
  have before := lt_of_reaches reads ends after byte reached
  have inside : brace ≤ inner := Nat.le_trans (Nat.le_of_lt after) (Nat.le_trans first le)
  obtain ⟨earlier, settles', last⟩ := settles.of_inside inside (Nat.lt_succ_of_lt before) wide
  rw [(location_of_block byte le located).2, settles'.blockEnd_eq]
  exact last

theorem nests_of_opens {pos next : Nat} {segment : List Char} {inside : Option (Nat × Nat)}
    {accessors : List Opener} (opened : source.OpenedBy parentKind parent brace)
    (after : brace < pos) (before : pos < parent.stop - 1)
    (looked : source.segment? pos (parent.stop - 1) = some segment)
    (opens : source.Opens pos (parent.stop - 1) segment ⟨kind, location, inside⟩ accessors next) :
    source.Nests brace parent kind location := by
  obtain ⟨low, high, margin_eq⟩ := codeStart_of_segment reads before looked
  -- The code of a line inside the block begins no later than where the block ends.
  have begun (begins : source.lineStart pos = pos) : pos + source.indent pos ≤ parent.stop := by
    have stop_eq := opened.stop_eq
    rcases source.blockEnd_cases brace (source.indent parent.start) with ⟨place, -, byte, eq⟩ | eq
    · have := add_indent_le_of_closing reads byte begins (by omega)
      omega
    · have := (reads.between_indent pos).2
      rw [begins] at this
      have := reads.lineEnd_le_size pos
      omega
  cases opens with
  | comment begins ends located =>
      obtain ⟨start_eq, -⟩ := location?_spec located
      refine ⟨by omega, by rw [start_eq]; exact begun begins, ?_⟩
      rintro (eq | ⟨settles, visible, -⟩)
      · rw [eq]
        exact (location_range reads located).2
      · obtain ⟨place, -, stop_eq, byte, -⟩ := settles.exists_place
        have first := add_indent_le_of_closing reads byte begins (by omega)
        refine Nat.le_of_not_lt fun beyond => visible rfl place (by omega) (by omega) byte
  | line begins code flat located =>
      obtain ⟨start_eq, stop_eq, -⟩ := location?_spec located
      refine ⟨by omega, by rw [start_eq]; exact begun begins, ?_⟩
      rintro (eq | ⟨settles, -⟩)
      · rw [eq]
        exact (location_range reads located).2
      · obtain ⟨place, -, place_eq, ends⟩ := settles.exists_place
        have limit_eq : parent.stop - 1 = place := by omega
        rw [limit_eq] at looked before
        have whole := lineEnd_le_of_code reads ends after before begins looked code
        have first := (reads.between_indent pos).2
        omega
  | arrow flat first last further located =>
      obtain ⟨start_eq, stop_eq, -⟩ := location?_spec located
      exact ⟨by omega, by omega, fun _ => by omega⟩
  | block lined byte first reached located | property lined byte first reached located =>
      obtain ⟨start_eq, -⟩ := location?_spec located
      refine ⟨by omega, by omega, ?_⟩
      rintro (eq | ⟨settles, -, wide⟩)
      · rw [eq]
        exact (location_range reads located).2
      · have wide := wide (by rw [lined]; rfl)
        rw [start_eq, margin_eq] at wide
        exact stop_le_of_settles reads settles after low byte first reached wide located

theorem nests_of_accessorAt {start resume : Nat} {inside : Option (Nat × Nat)}
    (begins : start ∈ source.lineStarts)
    (after : brace < start) (before : source.lineOf start < source.lineOf (parent.stop - 1))
    (accessor : source.AccessorAt start ⟨kind, location, inside⟩ resume) :
    source.Nests brace parent kind location := by
  have start_eq := reads.lineStart_of_mem begins
  have code := (reads.between_indent start).2
  rw [start_eq] at code
  have earlier : start < parent.stop - 1 := by
    refine Nat.lt_of_not_le fun le => ?_
    have := source.lineOf_mono le
    omega
  have whole : source.lineEnd start < parent.stop - 1 := by
    refine Nat.lt_of_not_le fun le => ?_
    have := (reads.same_line (by omega) le).1
    omega
  cases accessor with
  | arrow flat located =>
      obtain ⟨first, last, -⟩ := location?_spec located
      exact ⟨by omega, by omega, fun _ => by omega⟩
  | @block _ _ inner lined byte first reached located =>
      obtain ⟨first_eq, -⟩ := location?_spec located
      refine ⟨by omega, by omega, ?_⟩
      rintro (eq | ⟨settles, -, wide⟩)
      · rw [eq]
        exact (location_range reads located).2
      · have wide := wide (by rw [lined]; rfl)
        rw [first_eq, indent_of_same_line reads (by omega) code] at wide
        have reached : source.Reaches start (parent.stop - 1) inner := by
          rcases reached with inLine | found
          · exact .inl (Nat.lt_trans inLine whole)
          · exact .inr ⟨start, Nat.le_refl _, earlier, Nat.le_of_lt whole, found⟩
        exact stop_le_of_settles reads settles after (Nat.le_add_right _ _) byte first reached
          wide located

end Places

end Source
end DebugBridge
