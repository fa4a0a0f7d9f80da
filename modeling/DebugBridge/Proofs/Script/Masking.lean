import DebugBridge.Proofs.Script.Lines

/-!
# A file beside its masked form

Masking turns some characters into as many spaces as they have bytes and keeps all others.  So a
place between two characters of the text is one of the masked text, too, and the other way round
wherever a character that is no space stands at that place in the masked text.
-/

namespace DebugBridge

namespace Mask

open Text

/-- What masking may turn a text into. -/
inductive Masks : List Char → List Char → Prop
  | nil : Masks [] []
  | keep (c : Char) {text masked : List Char} (rest : Masks text masked) :
      Masks (c :: text) (c :: masked)
  | blank {c : Char} (inLine : c ≠ '\n') {text masked : List Char} (rest : Masks text masked) :
      Masks (c :: text) (List.replicate c.utf8Size ' ' ++ masked)

/-- The mode after a part of a text that the character `next` follows. -/
def modeAfter (version : Version) (mode : Mode) (before : Option Char) (next : Option Char) :
    List Char → Mode
  | [] => mode
  | c :: rest =>
    modeAfter version (step version mode before c (rest.head?.or next)).2 (some c) next rest

/-- The masked form of a part of a text that the character `next` follows. -/
def maskPart (version : Version) (mode : Mode) (before : Option Char) (next : Option Char) :
    List Char → List Char
  | [] => []
  | c :: rest =>
    (if (step version mode before c (rest.head?.or next)).1 then [c] else blanked c) ++
      maskPart version (step version mode before c (rest.head?.or next)).2 (some c) next rest

theorem getLast?_cons_or (c : Char) (text : List Char) (before : Option Char) :
    (c :: text).getLast?.or before = text.getLast?.or (some c) := by
  rw [List.getLast?_cons]
  cases text.getLast? <;> rfl

theorem maskFrom_append (version : Version) (mode : Mode) (before : Option Char)
    (text rest : List Char) : maskFrom version mode before (text ++ rest) =
      maskPart version mode before rest.head? text ++
        maskFrom version (modeAfter version mode before rest.head? text) (text.getLast?.or before)
          rest := by
  induction text generalizing mode before with
  | nil => simp [maskPart, modeAfter]
  | cons c text ih =>
      rw [List.cons_append, maskFrom, maskPart, modeAfter, getLast?_cons_or, List.head?_append,
        List.append_assoc, ← ih]

theorem masks_maskPart (version : Version) (mode : Mode) (before next : Option Char)
    (text : List Char) : Masks text (maskPart version mode before next text) := by
  induction text generalizing mode before with
  | nil => exact .nil
  | cons c rest ih =>
      rw [maskPart]
      split
      · exact .keep c (ih _ _)
      · rw [blanked]
        split
        next newline =>
          obtain rfl := beq_iff_eq.1 newline
          exact .keep '\n' (ih _ _)
        next inLine => exact .blank (mt beq_iff_eq.2 inLine) (ih _ _)

theorem masks_maskFrom (version : Version) (mode : Mode) (before : Option Char)
    (text : List Char) : Masks text (maskFrom version mode before text) := by
  have whole := maskFrom_append version mode before text []
  rw [List.append_nil, maskFrom, List.append_nil] at whole
  rw [whole]
  exact masks_maskPart version mode before _ text

theorem byteLength_replicate (count : Nat) : byteLength (List.replicate count ' ') = count := by
  rw [byteLength_of_le fun c member => ?_, List.length_replicate]
  rw [List.eq_of_mem_replicate member]
  decide

variable {text rest masked : List Char}

theorem Masks.byteLength_eq (masks : Masks text masked) : byteLength masked = byteLength text := by
  induction masks with
  | nil => rfl
  | keep c _ ih => rw [byteLength_cons, byteLength_cons, ih]
  | blank _ _ ih => rw [byteLength_append, byteLength_replicate, byteLength_cons, ih]

/-- A place in the text is one in the masked text. -/
theorem Masks.split (masks : Masks (text ++ rest) masked) :
    ∃ front back, masked = front ++ back ∧ Masks text front ∧ Masks rest back := by
  induction text generalizing masked with
  | nil => exact ⟨[], masked, rfl, .nil, masks⟩
  | cons c text ih =>
      cases masks with
      | keep _ later =>
          obtain ⟨front, back, rfl, first, second⟩ := ih later
          exact ⟨c :: front, back, rfl, .keep c first, second⟩
      | blank inLine later =>
          obtain ⟨front, back, rfl, first, second⟩ := ih later
          exact ⟨_, back, (List.append_assoc _ _ _).symm, .blank inLine first, second⟩

/-- A line break is never masked. -/
theorem Masks.newline (masks : Masks ('\n' :: text) masked) :
    ∃ back, masked = '\n' :: back ∧ Masks text back := by
  cases masks with
  | keep _ later => exact ⟨_, rfl, later⟩
  | blank inLine _ => exact absurd rfl inLine

/-- A place in the masked text is one in the text, but for one within spaces. -/
theorem Masks.split_visible {front back : List Char} (masks : Masks text (front ++ back))
    (visible : front.getLast? ≠ some ' ' ∨ back.head? ≠ some ' ') :
    ∃ before after, text = before ++ after ∧ Masks before front ∧ Masks after back := by
  generalize whole : front ++ back = masked at masks
  induction masks generalizing front with
  | nil =>
      obtain ⟨rfl, rfl⟩ := List.append_eq_nil_iff.1 whole
      exact ⟨[], [], rfl, .nil, .nil⟩
  | keep c later ih =>
      cases front with
      | nil =>
          obtain rfl : back = _ := whole
          exact ⟨[], _, rfl, .nil, .keep c later⟩
      | cons first front =>
          obtain ⟨rfl, rest⟩ := List.cons.inj whole
          have visible : front.getLast? ≠ some ' ' ∨ back.head? ≠ some ' ' := by
            cases front with
            | nil => exact .inl (by simp)
            | cons second front => rwa [List.getLast?_cons_cons] at visible
          obtain ⟨before, after, rfl, left, right⟩ := ih visible rest
          exact ⟨first :: before, after, rfl, .keep first left, right⟩
  | @blank c inLine text masked later ih =>
      rcases List.append_eq_append_iff.1 whole with ⟨spaces, within, rfl⟩ | ⟨more, rfl, rfl⟩
      · -- The place lies among the spaces, so it is their beginning or their end.
        have isSpace (place : Char) (member : place ∈ front ++ spaces) : place = ' ' :=
          List.eq_of_mem_replicate (within ▸ member)
        rcases List.eq_nil_or_concat front with rfl | ⟨front, last, rfl⟩
        · exact ⟨[], _, rfl, .nil, by rw [← List.nil_append spaces, ← within]; exact .blank inLine later⟩
        · cases spaces with
          | nil =>
              rw [List.append_nil] at within
              have blank : Masks [c] (List.replicate c.utf8Size ' ' ++ []) := .blank inLine .nil
              rw [List.append_nil, within] at blank
              exact ⟨[c], text, rfl, blank, later⟩
          | cons first spaces =>
              obtain rfl := isSpace last (by simp)
              obtain rfl := isSpace first (by simp)
              simp at visible
      · have visible : more.getLast? ≠ some ' ' ∨ back.head? ≠ some ' ' := by
          rcases List.eq_nil_or_concat more with rfl | ⟨more, last, rfl⟩
          · exact .inl (by simp)
          · simpa using visible
        obtain ⟨before, after, rfl, left, right⟩ := ih visible rfl
        exact ⟨c :: before, after, rfl, .blank inLine left, right⟩

end Mask

namespace Source

open Text Mask

/-! ## Places between characters -/

/-- A place between characters is one of the file. -/
theorem le_size_of_isBoundary {bytes : Array UInt8} {index : Nat}
    (boundary : isBoundary bytes index = true) : index ≤ bytes.size := by
  rw [isBoundary] at boundary
  cases byte : bytes[index]? with
  | none =>
      rw [byte, beq_iff_eq] at boundary
      exact Nat.le_of_eq boundary
  | some b => exact Nat.le_of_lt (Array.getElem?_eq_some_iff.1 byte).1

theorem getElem?_utf8_cons (c : Char) (text : List Char) (index : Nat) :
    (utf8 (c :: text))[c.utf8Size + index]? = (utf8 text)[index]? := by
  rw [utf8_cons, List.getElem?_append_right] <;> rw [String.length_utf8EncodeChar]
  · rw [Nat.add_sub_cancel_left]
  · exact Nat.le_add_right _ _

/-- A byte within the first character of a text. -/
theorem getElem?_utf8_head {c : Char} {index : Nat} (inside : index < c.utf8Size)
    (text : List Char) : (utf8 (c :: text))[index]? = (String.utf8EncodeChar c)[index]? := by
  rw [utf8_cons, List.getElem?_append_left]
  rwa [String.length_utf8EncodeChar]

theorem exists_split_of_isBoundary {text : List Char} {index : Nat}
    (boundary : isBoundary (utf8 text).toArray index) :
    ∃ before after, text = before ++ after ∧ byteLength before = index := by
  induction text generalizing index with
  | nil =>
      have start : (index == 0) = true := boundary
      exact ⟨[], [], rfl, (beq_iff_eq.1 start).symm⟩
  | cons c text ih =>
      by_cases start : index = 0
      · exact ⟨[], c :: text, rfl, start.symm⟩
      by_cases inside : index < c.utf8Size
      · have byte := getElem?_utf8_head inside text
        rw [← String.length_utf8EncodeChar c] at inside
        rw [isBoundary, List.getElem?_toArray, byte, List.getElem?_eq_getElem inside] at boundary
        have tail : (String.utf8EncodeChar c)[index] ∈ (String.utf8EncodeChar c).tail := by
          rw [← List.drop_one, List.mem_drop_iff_getElem]
          exact ⟨index - 1, by omega, by congr 1; omega⟩
        simp [isTail_of_mem_tail tail] at boundary
      · obtain ⟨more, rfl⟩ := Nat.exists_eq_add_of_le (Nat.le_of_not_lt inside)
        have later : isBoundary (utf8 text).toArray more := by
          rw [isBoundary, List.getElem?_toArray, getElem?_utf8_cons] at boundary
          rw [isBoundary, List.getElem?_toArray]
          cases byte : (utf8 text)[more]? with
          | none => simpa [byte] using boundary
          | some b => rwa [byte] at boundary
        obtain ⟨before, after, rfl, place⟩ := ih later
        exact ⟨c :: before, after, rfl, by rw [byteLength_cons, place]⟩

/-- An ASCII byte is a character of its own. -/
theorem exists_split_of_byte {text : List Char} {index : Nat} {b : UInt8}
    (byte : (utf8 text)[index]? = some b) (ascii : b.toNat < 0x80) :
    ∃ before c after, text = before ++ c :: after ∧ byteLength before = index ∧
      c.toNat = b.toNat := by
  induction text generalizing index with
  | nil => simp [utf8] at byte
  | cons c text ih =>
      by_cases inside : index < c.utf8Size
      · rw [getElem?_utf8_head inside] at byte
        have code := toNat_of_mem_utf8EncodeChar (List.mem_of_getElem? byte) ascii
        have size : c.utf8Size = 1 := by
          rw [← String.length_utf8EncodeChar, utf8EncodeChar_of_le (by omega)]
          rfl
        exact ⟨[], c, text, rfl, by rw [byteLength_nil]; omega, code⟩
      · obtain ⟨more, rfl⟩ := Nat.exists_eq_add_of_le (Nat.le_of_not_lt inside)
        rw [getElem?_utf8_cons] at byte
        obtain ⟨before, d, after, rfl, place, code⟩ := ih byte
        exact ⟨c :: before, d, after, rfl, by rw [byteLength_cons, place], code⟩

theorem getElem?_utf8_ascii {before after : List Char} {c : Char} (ascii : c.toNat < 0x80) :
    (utf8 (before ++ c :: after))[byteLength before]? = some (UInt8.ofNat c.toNat) := by
  rw [utf8_append, utf8_cons, utf8EncodeChar_of_le (by omega),
    List.getElem?_append_right (Nat.le_of_eq (length_utf8 before)), length_utf8, Nat.sub_self]
  rfl

/-- The bytes of a stretch of a text. -/
theorem getElem?_utf8_part {before part after : List Char} {offset : Nat}
    (inside : offset < byteLength part) :
    (utf8 (before ++ (part ++ after)))[byteLength before + offset]? = (utf8 part)[offset]? := by
  rw [utf8_append, utf8_append, List.getElem?_append_right (by rw [length_utf8]; omega), length_utf8,
    Nat.add_sub_cancel_left, List.getElem?_append_left (by rwa [length_utf8])]

/-- An ASCII byte in a stretch of a text is a character of the stretch. -/
theorem mem_of_byte {before part after : List Char} {index : Nat} {b : UInt8}
    (byte : (utf8 (before ++ (part ++ after)))[index]? = some b) (ascii : b.toNat < 0x80)
    (lower : byteLength before ≤ index) (upper : index < byteLength before + byteLength part) :
    ∃ c ∈ part, c.toNat = b.toNat := by
  obtain ⟨offset, rfl⟩ := Nat.exists_eq_add_of_le lower
  rw [getElem?_utf8_part (by omega)] at byte
  obtain ⟨front, c, back, rfl, -, code⟩ := exists_split_of_byte byte ascii
  exact ⟨c, by simp, code⟩

theorem eq_nil_of_byteLength {text : List Char} (empty : byteLength text = 0) : text = [] := by
  cases text with
  | nil => rfl
  | cons c text =>
      rw [byteLength_cons] at empty
      have := c.utf8Size_pos
      omega

/-- Of two places in a text the later one splits what follows the other. -/
theorem exists_between {before rest front back : List Char} (same : before ++ rest = front ++ back)
    (le : byteLength before ≤ byteLength front) :
    ∃ part, front = before ++ part ∧ rest = part ++ back := by
  rcases List.append_eq_append_iff.1 same with split | ⟨extra, rfl, rfl⟩
  · exact split
  · rw [byteLength_append] at le
    obtain rfl : extra = [] := eq_nil_of_byteLength (by omega)
    exact ⟨[], by simp, rfl⟩

theorem append_inj_of_byteLength {part after line back : List Char} (same : part ++ after = line ++ back)
    (size : byteLength part = byteLength line) : part = line := by
  obtain ⟨more, rfl, -⟩ := exists_between same (Nat.le_of_eq size)
  rw [byteLength_append] at size
  obtain rfl : more = [] := eq_nil_of_byteLength (by omega)
  exact (List.append_nil part).symm

/-- A stretch of a text begins what follows its place. -/
theorem prefix_of_byteLength {before part after front rest : List Char}
    (same : before ++ part ++ after = front ++ rest) (size : byteLength before = byteLength front) :
    part <+: rest := by
  rw [List.append_assoc] at same
  obtain rfl := append_inj_of_byteLength same size
  exact ⟨after, List.append_cancel_left same⟩

/-- Of two stretches of a text from the same place on the longer one begins with the other. -/
theorem exists_append_of_byteLength_le {before part after front line back : List Char}
    (same : before ++ part ++ after = front ++ line ++ back)
    (start : byteLength before = byteLength front) (le : byteLength part ≤ byteLength line) :
    ∃ more, line = part ++ more := by
  rw [List.append_assoc, List.append_assoc] at same
  obtain ⟨none, rfl, rest⟩ := exists_between same (Nat.le_of_eq start)
  rw [byteLength_append] at start
  obtain rfl : none = [] := eq_nil_of_byteLength (by omega)
  rw [List.nil_append] at rest
  obtain ⟨more, whole, -⟩ := exists_between rest le
  exact ⟨more, whole⟩

/-- What lies between two places of a text is a part of it. -/
theorem exists_part {text : List Char} {start stop : Nat} (le : start ≤ stop)
    (first : isBoundary (utf8 text).toArray start) (last : isBoundary (utf8 text).toArray stop) :
    ∃ before part after, text = before ++ part ++ after ∧ byteLength before = start ∧
      byteLength before + byteLength part = stop ∧
      charsOf (utf8 text).toArray start stop = part := by
  obtain ⟨before, rest, split, rfl⟩ := exists_split_of_isBoundary first
  obtain ⟨whole, after, rfl, rfl⟩ := exists_split_of_isBoundary last
  obtain ⟨part, rfl, -⟩ := exists_between split.symm le
  have length := byteLength_append before part
  refine ⟨before, part, after, rfl, rfl, length.symm, ?_⟩
  rw [length]
  exact charsOf_utf8 before part after

/-- A file that is known from its text and from its masked text. -/
structure Reads (source : Source) (text masked : List Char) : Prop where
  text_eq : source.text = (utf8 text).toArray
  masked_eq : source.masked = (utf8 masked).toArray
  masks : Masks text masked
  lineStarts_eq : source.lineStarts = (0 :: breaksFrom 0 (utf8 text)).toArray

theorem reads_ofText (version : Version) (path : String) (text : List Char) :
    (ofText version path text).Reads text (maskSource version text) :=
  ⟨rfl, rfl, masks_maskFrom _ _ _ _, rfl⟩

/-- Whether an offset lies between two characters of the text, and of the masked text. -/
structure Between (source : Source) (index : Nat) : Prop where
  text : isBoundary source.text index = true
  masked : isBoundary source.masked index = true

namespace Reads

variable {source : Source} {text masked : List Char} (reads : source.Reads text masked)

include reads

theorem size_eq : source.size = byteLength masked := by
  rw [size, reads.masked_eq, List.size_toArray, length_utf8]

theorem text_size_eq : source.text.size = source.size := by
  rw [reads.size_eq, reads.text_eq, List.size_toArray, length_utf8, reads.masks.byteLength_eq]

/-- A place between characters of both texts. -/
theorem between_split {before after front back : List Char} (plain : text = before ++ after)
    (hidden : masked = front ++ back) (same : byteLength front = byteLength before) :
    source.Between (byteLength before) where
  text := by rw [reads.text_eq, plain]; exact isBoundary_utf8 before after
  masked := by rw [reads.masked_eq, hidden, ← same]; exact isBoundary_utf8 front back

/-- Every place in the text is one in the masked text. -/
theorem between_of_text {index : Nat} (boundary : isBoundary source.text index = true) :
    source.Between index := by
  rw [reads.text_eq] at boundary
  obtain ⟨before, after, plain, rfl⟩ := exists_split_of_isBoundary boundary
  have masks := reads.masks
  rw [plain] at masks
  obtain ⟨front, back, hidden, first, _⟩ := masks.split
  exact reads.between_split plain hidden first.byteLength_eq

/-- A place in the masked text with a visible character at it is one in the text. -/
theorem between_of_masked {front back : List Char} (hidden : masked = front ++ back)
    (visible : front.getLast? ≠ some ' ' ∨ back.head? ≠ some ' ') :
    source.Between (byteLength front) := by
  have masks := reads.masks
  rw [hidden] at masks
  obtain ⟨before, after, plain, first, _⟩ := masks.split_visible visible
  rw [first.byteLength_eq]
  exact reads.between_split plain hidden first.byteLength_eq

theorem between_zero : source.Between 0 :=
  reads.between_split (List.nil_append text).symm (List.nil_append masked).symm rfl

theorem between_size : source.Between source.size := by
  rw [reads.size_eq, reads.masks.byteLength_eq]
  exact reads.between_split (List.append_nil text).symm (List.append_nil masked).symm
    reads.masks.byteLength_eq

/-- An ASCII character other than a space lies between two places. -/
theorem between_of_byte {index : Nat} {b : UInt8} (byte : source.masked[index]? = some b)
    (ascii : b.toNat < 0x80) (visible : b ≠ 32) :
    source.Between index ∧ source.Between (index + 1) := by
  rw [reads.masked_eq, List.getElem?_toArray] at byte
  obtain ⟨front, c, back, hidden, rfl, code⟩ := exists_split_of_byte byte ascii
  have other : c ≠ ' ' := by
    rintro rfl
    exact visible (UInt8.toNat_inj.1 code.symm)
  have size : c.utf8Size = 1 := by
    rw [← String.length_utf8EncodeChar, utf8EncodeChar_of_le (by omega)]
    rfl
  refine ⟨reads.between_of_masked hidden (.inr (by simpa using other)), ?_⟩
  have split : masked = (front ++ [c]) ++ back := by
    rw [hidden, List.append_assoc, List.singleton_append]
  have after := reads.between_of_masked split (.inl (by simpa using other))
  rwa [byteLength_append, byteLength_cons, byteLength_nil, size] at after

/-- The characters of a stretch of the masked text. -/
theorem exists_part_masked {start stop : Nat} (le : start ≤ stop)
    (first : isBoundary source.masked start = true) (last : isBoundary source.masked stop = true) :
    ∃ front part back, masked = front ++ part ++ back ∧ byteLength front = start ∧
      byteLength front + byteLength part = stop ∧ charsOf source.masked start stop = part := by
  rw [reads.masked_eq] at first last ⊢
  exact exists_part le first last

theorem getElem?_masked {front back : List Char} {c : Char} (hidden : masked = front ++ c :: back)
    (ascii : c.toNat < 0x80) : source.masked[byteLength front]? = some (UInt8.ofNat c.toNat) := by
  rw [reads.masked_eq, hidden, List.getElem?_toArray, getElem?_utf8_ascii ascii]

end Reads
end Source
end DebugBridge
