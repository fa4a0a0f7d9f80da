import DebugBridge.Text.Utf8

/-!
# Text survives as bytes

Reading the bytes of a text gives that text, whatever its characters.  The bytes of one character
make one piece, and what follows them is left alone.  No byte of a character is zero but the one of
the zero character.
-/

namespace DebugBridge
namespace Text

theorem toNat_byte {n : Nat} (small : n < 256) : (UInt8.ofNat n).toNat = n := by
  rw [UInt8.toNat_ofNat']
  exact Nat.mod_eq_of_lt small

theorem isTail_iff (b : UInt8) : isTail b = true ↔ 0x80 ≤ b.toNat ∧ b.toNat ≤ 0xBF := by
  simp [isTail, UInt8.le_iff_toNat_le]

/-- The byte that carries the last six bits of a number. -/
theorem toNat_tailByte (n : Nat) : (UInt8.ofNat (n % 64 + 0x80)).toNat = n % 64 + 0x80 := by
  rw [toNat_byte]
  omega

theorem tailBits_of_toNat {b : UInt8} {n : Nat} (byte : b.toNat = n + 0x80) : tailBits b = n := by
  unfold tailBits
  omega

/-- A byte with six bits of a character gives these bits. -/
theorem pieceTail_cons (value seen more n : Nat) (bytes : List UInt8) :
    pieceTail value seen (more + 1) (UInt8.ofNat (n % 64 + 0x80) :: bytes) =
      pieceTail (value * 64 + n % 64) (seen + 1) more bytes := by
  have byte := toNat_tailByte n
  have tail : isTail (UInt8.ofNat (n % 64 + 0x80)) = true := by
    rw [isTail_iff, byte]
    omega
  rw [pieceTail, if_pos tail, tailBits_of_toNat byte]

/-- What the first byte of a character of two bytes says. -/
theorem lead?_two {v : Nat} (low : 0x80 ≤ v) (high : v ≤ 0x7FF) :
    lead? (UInt8.ofNat (v / 64 % 32 + 0xC0)) = some ⟨v / 64, 0x80, 0xBF, 0⟩ := by
  have byte : (UInt8.ofNat (v / 64 % 32 + 0xC0)).toNat = v / 64 + 0xC0 := by
    rw [toNat_byte] <;> omega
  generalize UInt8.ofNat (v / 64 % 32 + 0xC0) = b at byte
  simp only [lead?, UInt8.lt_iff_toNat_lt, UInt8.le_iff_toNat_le, byte, UInt8.reduceToNat]
  rw [if_neg (by omega), if_pos (by omega), Nat.add_sub_cancel]

/-- What the first byte of a character of three bytes says; some second bytes are no good. -/
theorem lead?_three {v : Nat} (low : 0x800 ≤ v) (high : v ≤ 0xFFFF)
    (scalar : v < 0xD800 ∨ 0xDFFF < v) :
    ∃ lead, lead? (UInt8.ofNat (v / 4096 % 16 + 0xE0)) = some lead ∧ lead.bits = v / 4096 ∧
      lead.low.toNat ≤ v / 64 % 64 + 0x80 ∧ v / 64 % 64 + 0x80 ≤ lead.high.toNat ∧
      lead.more = 1 := by
  have byte : (UInt8.ofNat (v / 4096 % 16 + 0xE0)).toNat = v / 4096 + 0xE0 := by
    rw [toNat_byte] <;> omega
  generalize UInt8.ofNat (v / 4096 % 16 + 0xE0) = b at byte
  simp only [lead?, beq_iff_eq, UInt8.lt_iff_toNat_lt, UInt8.le_iff_toNat_le, ← UInt8.toNat_inj,
    byte, UInt8.reduceToNat]
  rw [if_neg (by omega), if_neg (by omega)]
  split
  · refine ⟨_, rfl, ?_⟩
    simp only [UInt8.reduceToNat, and_true]
    omega
  · split
    · refine ⟨_, rfl, ?_⟩
      simp only [UInt8.reduceToNat, and_true]
      omega
    · rw [if_pos (by omega)]
      refine ⟨_, rfl, ?_⟩
      simp only [UInt8.reduceToNat, and_true]
      omega

/-- What the first byte of a character of four bytes says; some second bytes are no good. -/
theorem lead?_four {v : Nat} (low : 0x10000 ≤ v) (high : v < 0x110000) :
    ∃ lead, lead? (UInt8.ofNat (v / 262144 % 8 + 0xF0)) = some lead ∧ lead.bits = v / 262144 ∧
      lead.low.toNat ≤ v / 4096 % 64 + 0x80 ∧ v / 4096 % 64 + 0x80 ≤ lead.high.toNat ∧
      lead.more = 2 := by
  have byte : (UInt8.ofNat (v / 262144 % 8 + 0xF0)).toNat = v / 262144 + 0xF0 := by
    rw [toNat_byte] <;> omega
  generalize UInt8.ofNat (v / 262144 % 8 + 0xF0) = b at byte
  simp only [lead?, beq_iff_eq, UInt8.lt_iff_toNat_lt, UInt8.le_iff_toNat_le, ← UInt8.toNat_inj,
    byte, UInt8.reduceToNat]
  rw [if_neg (by omega), if_neg (by omega), if_neg (by omega), if_neg (by omega),
    if_neg (by omega)]
  split
  · refine ⟨_, rfl, ?_⟩
    simp only [UInt8.reduceToNat, and_true]
    omega
  · split
    · refine ⟨_, rfl, ?_⟩
      simp only [UInt8.reduceToNat, and_true]
      omega
    · rw [if_pos (by omega)]
      refine ⟨_, rfl, ?_⟩
      simp only [UInt8.reduceToNat, and_true]
      omega

/-- The piece after a first byte and a second one that fits. -/
theorem pieceAt_cons {b : UInt8} {lead : Lead} (large : 0x80 ≤ b.toNat)
    (first : lead? b = some lead) {n : Nat} (low : lead.low.toNat ≤ n % 64 + 0x80)
    (high : n % 64 + 0x80 ≤ lead.high.toNat) (bytes : List UInt8) :
    pieceAt b (UInt8.ofNat (n % 64 + 0x80) :: bytes) =
      pieceTail (lead.bits * 64 + n % 64) 2 lead.more bytes := by
  have byte := toNat_tailByte n
  have fits : (lead.low ≤ UInt8.ofNat (n % 64 + 0x80) && UInt8.ofNat (n % 64 + 0x80) ≤ lead.high) =
      true := by
    rw [Bool.and_eq_true, decide_eq_true_eq, decide_eq_true_eq, UInt8.le_iff_toNat_le,
      UInt8.le_iff_toNat_le, byte]
    exact ⟨low, high⟩
  have several : ¬ b < 0x80 := by
    rw [UInt8.lt_iff_toNat_lt]
    simpa using large
  rw [pieceAt, if_neg several, first]
  simp only [fits, if_true, tailBits_of_toNat byte]

/-! ## Characters of one to four bytes -/

theorem pieceAt_one {v : Nat} (high : v ≤ 0x7F) (rest : List UInt8) :
    pieceAt (UInt8.ofNat v) rest = .char (Char.ofNat v) := by
  have byte : (UInt8.ofNat v).toNat = v := by
    rw [toNat_byte]
    omega
  have small : UInt8.ofNat v < 0x80 := by
    rw [UInt8.lt_iff_toNat_lt, byte]
    exact Nat.lt_succ_of_le high
  rw [pieceAt, if_pos small, byte]

theorem pieceAt_two {v : Nat} (low : 0x80 ≤ v) (high : v ≤ 0x7FF) (rest : List UInt8) :
    pieceAt (UInt8.ofNat (v / 64 % 32 + 0xC0)) (UInt8.ofNat (v % 64 + 0x80) :: rest) =
      .char (Char.ofNat v) := by
  have byte : (UInt8.ofNat (v / 64 % 32 + 0xC0)).toNat = v / 64 % 32 + 0xC0 := by
    rw [toNat_byte]
    omega
  have value : v / 64 * 64 + v % 64 = v := by omega
  rw [pieceAt_cons (by omega) (lead?_two low high) (by simp) (by simp; omega), pieceTail, value]

theorem pieceAt_three {v : Nat} (low : 0x800 ≤ v) (high : v ≤ 0xFFFF)
    (scalar : v < 0xD800 ∨ 0xDFFF < v) (rest : List UInt8) :
    pieceAt (UInt8.ofNat (v / 4096 % 16 + 0xE0))
        (UInt8.ofNat (v / 64 % 64 + 0x80) :: UInt8.ofNat (v % 64 + 0x80) :: rest) =
      .char (Char.ofNat v) := by
  have byte : (UInt8.ofNat (v / 4096 % 16 + 0xE0)).toNat = v / 4096 % 16 + 0xE0 := by
    rw [toNat_byte]
    omega
  have value : (v / 4096 * 64 + v / 64 % 64) * 64 + v % 64 = v := by omega
  obtain ⟨lead, first, bits, least, greatest, more⟩ := lead?_three low high scalar
  rw [pieceAt_cons (by omega) first least greatest, more, pieceTail_cons, bits, pieceTail, value]

theorem pieceAt_four {v : Nat} (low : 0x10000 ≤ v) (high : v < 0x110000) (rest : List UInt8) :
    pieceAt (UInt8.ofNat (v / 262144 % 8 + 0xF0))
        (UInt8.ofNat (v / 4096 % 64 + 0x80) :: UInt8.ofNat (v / 64 % 64 + 0x80) ::
          UInt8.ofNat (v % 64 + 0x80) :: rest) =
      .char (Char.ofNat v) := by
  have byte : (UInt8.ofNat (v / 262144 % 8 + 0xF0)).toNat = v / 262144 % 8 + 0xF0 := by
    rw [toNat_byte]
    omega
  have value :
      ((v / 262144 * 64 + v / 4096 % 64) * 64 + v / 64 % 64) * 64 + v % 64 = v := by omega
  obtain ⟨lead, first, bits, least, greatest, more⟩ := lead?_four low high
  rw [pieceAt_cons (by omega) first least greatest, more, pieceTail_cons, pieceTail_cons, bits,
    pieceTail, value]

/-- The bytes of a character, with anything after them, begin with the piece of that character. -/
theorem pieceAt_utf8EncodeChar (c : Char) :
    ∃ b tail, String.utf8EncodeChar c = b :: tail ∧
      ∀ rest, pieceAt b (tail ++ rest) = .char c := by
  have valid : c.val.toNat < 0xD800 ∨ 0xDFFF < c.val.toNat ∧ c.val.toNat < 0x110000 := c.valid
  have value : Piece.char c = .char (Char.ofNat c.val.toNat) :=
    congrArg Piece.char (Char.ofNat_toNat c).symm
  rw [value]
  unfold String.utf8EncodeChar
  generalize c.val.toNat = v at valid
  dsimp only
  split
  · rename_i one
    exact ⟨_, _, rfl, pieceAt_one one⟩
  · split
    · rename_i large two
      exact ⟨_, _, rfl, pieceAt_two (by omega) two⟩
    · split
      · rename_i large three
        exact ⟨_, _, rfl, pieceAt_three (by omega) three (by omega)⟩
      · exact ⟨_, _, rfl, pieceAt_four (by omega) (by omega)⟩

/-! ## Texts -/

theorem pieces_append (c : Char) (rest : List UInt8) :
    pieces (String.utf8EncodeChar c ++ rest) = .char c :: pieces rest := by
  obtain ⟨b, tail, eq, piece⟩ := pieceAt_utf8EncodeChar c
  have length : tail.length = c.utf8Size - 1 := by
    rw [← String.length_utf8EncodeChar c, eq, List.length_cons, Nat.add_sub_cancel]
  rw [eq, List.cons_append, pieces, piece]
  simp only [Piece.size]
  rw [← length, List.drop_left]

theorem pieces_utf8 (text : List Char) : pieces (utf8 text) = text.map .char := by
  induction text with
  | nil => rw [utf8, List.flatMap_nil, pieces, List.map_nil]
  | cons c text ih => rw [utf8, List.flatMap_cons, pieces_append, ← utf8, ih, List.map_cons]

theorem strictFrom_map_char (index : Nat) (text : List Char) :
    strictFrom index (text.map .char) = .ok text := by
  induction text generalizing index with
  | nil => rfl
  | cons c text ih =>
      rw [List.map_cons, strictFrom, ih]
      rfl

/-- Reading the bytes of a text gives the text. -/
theorem utf8?_utf8 (text : List Char) : utf8? (utf8 text) = .ok text := by
  rw [utf8?, pieces_utf8, strictFrom_map_char]

theorem utf8?_bytesOf (text : String) : utf8? (bytesOf text) = .ok text.toList :=
  utf8?_utf8 text.toList

/-- An ASCII character is one byte. -/
theorem utf8EncodeChar_of_le {c : Char} (ascii : c.toNat ≤ 0x7F) :
    String.utf8EncodeChar c = [UInt8.ofNat c.toNat] :=
  if_pos ascii

theorem utf8_of_le {text : List Char} (ascii : ∀ c ∈ text, c.toNat ≤ 0x7F) :
    utf8 text = text.map fun c => UInt8.ofNat c.toNat := by
  induction text with
  | nil => rfl
  | cons c text ih =>
      rw [utf8, List.flatMap_cons, utf8EncodeChar_of_le (ascii c List.mem_cons_self), ← utf8,
        ih fun other member => ascii other (List.mem_cons_of_mem c member)]
      rfl

/-! ## Zero bytes -/

theorem not_mem_utf8EncodeChar {c : Char} (other : c ≠ '\x00') : 0 ∉ String.utf8EncodeChar c := by
  have positive : c.val.toNat ≠ 0 := by
    intro zero
    exact other (Char.ext (UInt32.toNat_inj.1 zero))
  have nonzero : ∀ {n : Nat}, 0 < n → n < 256 → (0 : UInt8) ≠ UInt8.ofNat n := by
    intro n low high eq
    have value := congrArg UInt8.toNat eq
    rw [toNat_byte high] at value
    exact Nat.ne_of_lt low value
  unfold String.utf8EncodeChar
  dsimp only
  split
  · simp only [List.mem_singleton]
    exact nonzero (by omega) (by omega)
  · split
    · simp only [List.mem_cons, List.not_mem_nil, or_false, not_or]
      exact ⟨nonzero (by omega) (by omega), nonzero (by omega) (by omega)⟩
    · split
      · simp only [List.mem_cons, List.not_mem_nil, or_false, not_or]
        exact ⟨nonzero (by omega) (by omega), nonzero (by omega) (by omega),
          nonzero (by omega) (by omega)⟩
      · simp only [List.mem_cons, List.not_mem_nil, or_false, not_or]
        exact ⟨nonzero (by omega) (by omega), nonzero (by omega) (by omega),
          nonzero (by omega) (by omega), nonzero (by omega) (by omega)⟩

/-- A text has as many zero bytes as zero characters. -/
theorem count_utf8 (text : List Char) : (utf8 text).count 0 = text.count '\x00' := by
  induction text with
  | nil => rfl
  | cons c text ih =>
      rw [utf8, List.flatMap_cons, ← utf8, List.count_append, ih, List.count_cons, Nat.add_comm]
      by_cases zero : c = '\x00'
      · subst zero
        rfl
      · rw [List.count_eq_zero.2 (not_mem_utf8EncodeChar zero), if_neg (mt beq_iff_eq.1 zero)]

/-- A text without the zero character has no zero byte. -/
theorem not_mem_utf8 {text : List Char} (other : '\x00' ∉ text) : 0 ∉ utf8 text := by
  rw [← List.count_eq_zero, count_utf8, List.count_eq_zero]
  exact other

/-! ## Places between characters -/

/-- Reading the bytes of a text leniently gives the text, too. -/
theorem utf8Lossy_utf8 (text : List Char) : utf8Lossy (utf8 text) = text := by
  rw [utf8Lossy, pieces_utf8, List.map_map]
  exact List.map_id' text

theorem utf8_append (text rest : List Char) : utf8 (text ++ rest) = utf8 text ++ utf8 rest :=
  List.flatMap_append

theorem utf8_cons (c : Char) (text : List Char) :
    utf8 (c :: text) = String.utf8EncodeChar c ++ utf8 text :=
  List.flatMap_cons

@[simp]
theorem byteLength_nil : byteLength [] = 0 := rfl

@[simp]
theorem byteLength_cons (c : Char) (text : List Char) :
    byteLength (c :: text) = c.utf8Size + byteLength text := by
  have start (size : Nat) (text : List Char) :
      text.foldl (fun size c => size + c.utf8Size) size = size + byteLength text := by
    induction text generalizing size with
    | nil => rfl
    | cons c text ih =>
        rw [byteLength, List.foldl_cons, List.foldl_cons, ih, ih (0 + c.utf8Size)]
        omega
  rw [byteLength, List.foldl_cons, start, Nat.zero_add]

@[simp]
theorem byteLength_append (text rest : List Char) :
    byteLength (text ++ rest) = byteLength text + byteLength rest := by
  induction text with
  | nil => rw [List.nil_append, byteLength_nil, Nat.zero_add]
  | cons c text ih => rw [List.cons_append, byteLength_cons, ih, byteLength_cons, Nat.add_assoc]

@[simp]
theorem length_utf8 (text : List Char) : (utf8 text).length = byteLength text := by
  induction text with
  | nil => rfl
  | cons c text ih =>
      rw [utf8_cons, List.length_append, ih, String.length_utf8EncodeChar, byteLength_cons]

/-- An ASCII text takes as many bytes as it has characters. -/
theorem byteLength_of_le {text : List Char} (ascii : ∀ c ∈ text, c.toNat ≤ 0x7F) :
    byteLength text = text.length := by
  rw [← length_utf8, utf8_of_le ascii, List.length_map]

/-- No byte of a character begins like another character, but for the first one. -/
theorem utf8EncodeChar_head (c : Char) :
    ∃ b tail, String.utf8EncodeChar c = b :: tail ∧ isTail b = false := by
  have lead {n : Nat} (small : n < 256) (high : 0xBF < n) : isTail (UInt8.ofNat n) = false := by
    rw [Bool.eq_false_iff, ne_eq, isTail_iff, toNat_byte small]
    omega
  unfold String.utf8EncodeChar
  generalize c.val.toNat = v
  dsimp only
  split
  · refine ⟨_, _, rfl, ?_⟩
    rw [Bool.eq_false_iff, ne_eq, isTail_iff, toNat_byte] <;> omega
  · split
    · exact ⟨_, _, rfl, lead (by omega) (by omega)⟩
    · split
      · exact ⟨_, _, rfl, lead (by omega) (by omega)⟩
      · exact ⟨_, _, rfl, lead (by omega) (by omega)⟩

/-- All other bytes of a character continue it. -/
theorem isTail_of_mem_tail {c : Char} {b : UInt8}
    (member : b ∈ (String.utf8EncodeChar c).tail) : isTail b = true := by
  have tail (n : Nat) : isTail (UInt8.ofNat (n % 64 + 0x80)) = true := by
    rw [isTail_iff, toNat_tailByte]
    omega
  unfold String.utf8EncodeChar at member
  generalize c.val.toNat = v at member
  dsimp only at member
  split at member
  · cases member
  · split at member
    · obtain rfl := List.mem_singleton.1 member
      exact tail _
    · split at member
      · simp only [List.tail_cons, List.mem_cons, List.not_mem_nil, or_false] at member
        rcases member with rfl | rfl <;> exact tail _
      · simp only [List.tail_cons, List.mem_cons, List.not_mem_nil, or_false] at member
        rcases member with rfl | rfl | rfl <;> exact tail _

/-- A byte below 0x80 is a character of its own. -/
theorem toNat_of_mem_utf8EncodeChar {c : Char} {b : UInt8}
    (member : b ∈ String.utf8EncodeChar c) (ascii : b.toNat < 0x80) : c.toNat = b.toNat := by
  have high {n : Nat} (small : n < 256) (large : 0x80 ≤ n) : b ≠ UInt8.ofNat n := by
    rintro rfl
    rw [toNat_byte small] at ascii
    omega
  unfold String.utf8EncodeChar at member
  change c.val.toNat = b.toNat
  generalize c.val.toNat = v at member
  dsimp only at member
  split at member
  · rw [List.mem_singleton.1 member, toNat_byte (by omega)]
  · split at member
    · simp only [List.mem_cons, List.not_mem_nil, or_false] at member
      rcases member with member | member <;> exact absurd member (high (by omega) (by omega))
    · split at member
      · simp only [List.mem_cons, List.not_mem_nil, or_false] at member
        rcases member with member | member | member <;>
          exact absurd member (high (by omega) (by omega))
      · simp only [List.mem_cons, List.not_mem_nil, or_false] at member
        rcases member with member | member | member | member <;>
          exact absurd member (high (by omega) (by omega))

/-- An ASCII character stands in a text whose bytes hold its code. -/
theorem mem_of_mem_utf8 {text : List Char} {c : Char} (ascii : c.toNat < 0x80)
    (member : UInt8.ofNat c.toNat ∈ utf8 text) : c ∈ text := by
  obtain ⟨d, place, inside⟩ := List.mem_flatMap.1 member
  have small : (UInt8.ofNat c.toNat).toNat = c.toNat := toNat_byte (by omega)
  have code := toNat_of_mem_utf8EncodeChar inside (by rwa [small])
  rw [small] at code
  exact Char.ext (UInt32.toNat_inj.1 code) ▸ place

end Text
end DebugBridge
