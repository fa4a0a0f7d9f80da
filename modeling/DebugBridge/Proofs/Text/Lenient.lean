import DebugBridge.Proofs.Text.Utf8
import Mathlib.Data.List.Basic

/-!
# Bytes that are no text are replaced

Lenient reading keeps every character, and puts one replacement character in the place of each
broken part, that is the longest run of bytes that begins a character without being one, or a single
byte that begins none.
-/

namespace DebugBridge
namespace Text

/-- A part of a byte string, with `rest` behind it, that stands for no character. -/
structure Broken (part rest : List UInt8) : Prop where
  /-- There are bytes in it. -/
  some : part ≠ []
  /-- No character begins here. -/
  none : ∀ c, ¬ String.utf8EncodeChar c <+: part ++ rest
  /-- It is the beginning of a character, or a single byte. -/
  begins : part.length = 1 ∨ ∃ c, part <+: String.utf8EncodeChar c
  /-- With the next byte it is no beginning of a character. -/
  longest : ∀ b ∈ rest.head?, ∀ c, ¬ part ++ [b] <+: String.utf8EncodeChar c

/-- A text keeps the characters of a byte string, and has a replacement character for each broken
part. -/
inductive Mended : List UInt8 → List Char → Prop
  /-- Nothing is left. -/
  | nil : Mended [] []
  /-- A character is kept. -/
  | char {bytes : List UInt8} {text : List Char} (c : Char) (next : Mended bytes text) :
      Mended (String.utf8EncodeChar c ++ bytes) (c :: text)
  /-- A broken part is replaced. -/
  | broken {part bytes : List UInt8} {text : List Char} (broken : Broken part bytes)
      (next : Mended bytes text) : Mended (part ++ bytes) ('\uFFFD' :: text)

/-! ## Beginnings of characters -/

/-- What the first byte of a character says fits its value: it gives the bits that its kind leaves
free, and the second byte is bounded so that they make no shorter character, no surrogate and none
beyond the last one. -/
def Lead.Fits (lead : Lead) (value : Nat) : Prop :=
  0x80 ≤ lead.low.toNat ∧ lead.high.toNat ≤ 0xBF ∧
    (lead.more = 0 ∧ value = lead.bits + 0xC0 ∧ 2 ≤ lead.bits ∧ lead.bits < 0x20 ∨
      lead.more = 1 ∧ value = lead.bits + 0xE0 ∧ lead.bits < 0x10 ∧
        (lead.bits = 0 → 0xA0 ≤ lead.low.toNat) ∧ (lead.bits = 0xD → lead.high.toNat ≤ 0x9F) ∨
      lead.more = 2 ∧ value = lead.bits + 0xF0 ∧ lead.bits ≤ 4 ∧
        (lead.bits = 0 → 0x90 ≤ lead.low.toNat) ∧ (lead.bits = 4 → lead.high.toNat ≤ 0x8F))

instance {lead : Lead} {value : Nat} : Decidable (lead.Fits value) :=
  inferInstanceAs (Decidable (_ ∧ _ ∧ (_ ∨ _ ∨ _)))

theorem fits_of_lead? {b : UInt8} {lead : Lead} (first : lead? b = some lead) :
    lead.Fits b.toNat := by
  have all : ∀ value < 256, ∀ lead ∈ lead? (UInt8.ofNat value), lead.Fits value := by
    decide +kernel
  have this := all b.toNat b.toNat_lt lead
  rw [UInt8.ofNat_toNat] at this
  exact this first

theorem toNat_ofNat_of_scalar {v : Nat} (scalar : v < 0xD800 ∨ 0xDFFF < v ∧ v < 0x110000) :
    (Char.ofNat v).val.toNat = v := by
  rw [Char.ofNat, dif_pos scalar]
  rfl

/-- A byte that is told by its value. -/
theorem ofNat_eq {b : UInt8} {n : Nat} (value : b.toNat = n) : UInt8.ofNat n = b := by
  rw [← value, UInt8.ofNat_toNat]

/-- The first byte, a second one that fits and as many others as it asks for are a character. -/
theorem exists_utf8EncodeChar {b second : UInt8} {tails : List UInt8} {lead : Lead}
    (first : lead? b = some lead) (low : lead.low ≤ second) (high : second ≤ lead.high)
    (length : tails.length = lead.more) (tail : ∀ t ∈ tails, isTail t = true) :
    ∃ c, String.utf8EncodeChar c = b :: second :: tails := by
  rw [UInt8.le_iff_toNat_le] at low high
  simp only [isTail_iff] at tail
  obtain ⟨least, greatest, ⟨more, value, kind⟩ | ⟨more, value, kind⟩ | ⟨more, value, kind⟩⟩ :=
    fits_of_lead? first
  · rw [more] at length
    obtain rfl := List.length_eq_zero_iff.1 length
    refine ⟨Char.ofNat (lead.bits * 64 + (second.toNat - 0x80)), ?_⟩
    unfold String.utf8EncodeChar
    rw [toNat_ofNat_of_scalar (by omega)]
    dsimp only
    rw [if_neg (by omega), if_pos (by omega), ofNat_eq (b := b) (by omega),
      ofNat_eq (b := second) (by omega)]
  · rw [more] at length
    obtain ⟨third, rfl⟩ := List.length_eq_one_iff.1 length
    simp only [List.forall_mem_singleton] at tail
    refine ⟨Char.ofNat ((lead.bits * 64 + (second.toNat - 0x80)) * 64 + (third.toNat - 0x80)), ?_⟩
    unfold String.utf8EncodeChar
    rw [toNat_ofNat_of_scalar (by omega)]
    dsimp only
    rw [if_neg (by omega), if_neg (by omega), if_pos (by omega), ofNat_eq (b := b) (by omega),
      ofNat_eq (b := second) (by omega), ofNat_eq (b := third) (by omega)]
  · rw [more] at length
    obtain ⟨third, fourth, rfl⟩ := List.length_eq_two.1 length
    simp only [List.forall_mem_cons] at tail
    refine ⟨Char.ofNat (((lead.bits * 64 + (second.toNat - 0x80)) * 64 + (third.toNat - 0x80)) * 64 +
      (fourth.toNat - 0x80)), ?_⟩
    unfold String.utf8EncodeChar
    rw [toNat_ofNat_of_scalar (by omega)]
    dsimp only
    rw [if_neg (by omega), if_neg (by omega), if_neg (by omega), ofNat_eq (b := b) (by omega),
      ofNat_eq (b := second) (by omega), ofNat_eq (b := third) (by omega),
      ofNat_eq (b := fourth) (by omega)]

/-! ## The piece at the head -/

theorem broken_ne_char (size : Nat) (c : Char) : Piece.broken size ≠ .char c := nofun

theorem cut_ne_char (size : Nat) (c : Char) : Piece.cut size ≠ .char c := nofun

/-- Bytes that continue a character are taken up as far as they are asked for; if there are fewer,
the piece is of no character. -/
theorem pieceTail_cases (value seen more : Nat) (bytes : List UInt8) :
    ∃ tails rest, bytes = tails ++ rest ∧ (∀ t ∈ tails, isTail t = true) ∧
      (tails.length = more ∧ (∃ c, pieceTail value seen more bytes = .char c) ∨
        tails.length < more ∧ (∀ b ∈ rest.head?, isTail b = false) ∧
          (∀ c, pieceTail value seen more bytes ≠ .char c) ∧
          (pieceTail value seen more bytes).size = seen + tails.length) := by
  induction bytes generalizing value seen more with
  | nil =>
      refine ⟨[], [], rfl, nofun, ?_⟩
      cases more with
      | zero => exact .inl ⟨rfl, _, rfl⟩
      | succ more => exact .inr ⟨Nat.succ_pos more, nofun, cut_ne_char seen, rfl⟩
  | cons b bytes ih =>
      cases more with
      | zero => exact ⟨[], b :: bytes, rfl, nofun, .inl ⟨rfl, _, rfl⟩⟩
      | succ more =>
          rw [pieceTail]
          split
          next tail =>
              obtain ⟨tails, rest, rfl, all, outcome⟩ :=
                ih (value * 64 + tailBits b) (seen + 1) more
              refine ⟨b :: tails, rest, rfl, List.forall_mem_cons.2 ⟨tail, all⟩, ?_⟩
              rw [List.length_cons, Nat.add_left_inj, Nat.add_lt_add_iff_right,
                Nat.add_comm tails.length, ← Nat.add_assoc]
              exact outcome
          next other =>
              refine ⟨[], b :: bytes, rfl, List.forall_mem_nil _,
                .inr ⟨Nat.succ_pos more, ?_, broken_ne_char seen, rfl⟩⟩
              intro d first
              cases first
              exact Bool.eq_false_iff.2 other

/-- Where the piece is of no character, the bytes of none stand. -/
theorem not_prefix_of_pieceAt {b : UInt8} {bytes : List UInt8}
    (other : ∀ c, pieceAt b bytes ≠ .char c) (c : Char) :
    ¬ String.utf8EncodeChar c <+: b :: bytes := by
  rintro ⟨rest, whole⟩
  obtain ⟨lead, tail, eq, piece⟩ := pieceAt_utf8EncodeChar c
  rw [eq, List.cons_append, List.cons.injEq] at whole
  obtain ⟨rfl, rfl⟩ := whole
  exact other c (piece rest)

/-- A byte string begins with the bytes of the character that its first piece is of, or else with a
broken part of the piece's size. -/
inductive Heads : List UInt8 → Piece → Prop
  /-- A character. -/
  | char (c : Char) (rest : List UInt8) : Heads (String.utf8EncodeChar c ++ rest) (.char c)
  /-- A broken part. -/
  | broken {part rest : List UInt8} {piece : Piece} (other : ∀ c, piece ≠ .char c)
      (size : piece.size = part.length) (broken : Broken part rest) : Heads (part ++ rest) piece

/-- A single byte is a broken part if no piece is of a character that begins with it and with the
next byte. -/
theorem heads_single {b : UInt8} {bytes : List UInt8} (other : ∀ c, pieceAt b bytes ≠ .char c)
    (size : (pieceAt b bytes).size = 1)
    (next : ∀ d ∈ bytes.head?, ∀ rest c, pieceAt b (d :: rest) ≠ .char c) :
    Heads (b :: bytes) (pieceAt b bytes) := by
  change Heads ([b] ++ bytes) (pieceAt b bytes)
  refine .broken other size
    ⟨nofun, not_prefix_of_pieceAt other, .inl rfl, fun d first c => ?_⟩
  rintro ⟨rest, whole⟩
  obtain ⟨lead, tail, eq, piece⟩ := pieceAt_utf8EncodeChar c
  rw [eq, List.singleton_append, List.cons_append, List.cons.injEq] at whole
  obtain ⟨rfl, rfl⟩ := whole
  refine next d first rest c ?_
  have same := piece []
  rwa [List.append_nil] at same

/-- Some bytes of a character, the second one fitting the first, are its beginning; they are broken
where no further byte continues them. -/
theorem heads_several {b second : UInt8} {tails rest : List UInt8} {lead : Lead}
    (first : lead? b = some lead) (low : lead.low ≤ second) (high : second ≤ lead.high)
    (few : tails.length < lead.more) (all : ∀ t ∈ tails, isTail t = true)
    (ends : ∀ d ∈ rest.head?, isTail d = false)
    (other : ∀ c, pieceAt b (second :: (tails ++ rest)) ≠ .char c)
    (size : (pieceAt b (second :: (tails ++ rest))).size = 2 + tails.length) :
    Heads (b :: second :: (tails ++ rest)) (pieceAt b (second :: (tails ++ rest))) := by
  change Heads ((b :: second :: tails) ++ rest) (pieceAt b (second :: (tails ++ rest)))
  refine .broken other (by rw [size, Nat.add_comm]; rfl)
    ⟨nofun, not_prefix_of_pieceAt other, .inr ?_, fun d next c => ?_⟩
  · -- With as many least continuing bytes as are missing there is a character.
    let missing := List.replicate (lead.more - tails.length) (0x80 : UInt8)
    have length : (tails ++ missing).length = lead.more := by
      rw [List.length_append, List.length_replicate]
      omega
    have continuing : ∀ t ∈ tails ++ missing, isTail t = true := by
      intro t member
      obtain member | member := List.mem_append.1 member
      · exact all t member
      · rw [List.eq_of_mem_replicate member]
        rfl
    obtain ⟨c, eq⟩ := exists_utf8EncodeChar first low high length continuing
    exact ⟨c, missing, eq.symm⟩
  · rintro ⟨more, whole⟩
    have tail : d ∈ (String.utf8EncodeChar c).tail := by
      rw [← whole]
      simp
    have stops := ends d next
    rw [isTail_of_mem_tail tail] at stops
    cases stops

theorem heads_pieceAt (b : UInt8) (bytes : List UInt8) : Heads (b :: bytes) (pieceAt b bytes) := by
  by_cases ascii : b < 0x80
  · have small : b.toNat ≤ 0x7F := Nat.le_of_lt_succ (UInt8.lt_iff_toNat_lt.1 ascii)
    have value := toNat_ofNat_of_scalar (v := b.toNat) (.inl (by omega))
    have eq : String.utf8EncodeChar (Char.ofNat b.toNat) = [b] := by
      rw [utf8EncodeChar_of_le (by rwa [Char.toNat, value]), Char.toNat, value, UInt8.ofNat_toNat]
    have heads := Heads.char (Char.ofNat b.toNat) bytes
    rw [eq] at heads
    rwa [pieceAt, if_pos ascii]
  cases first : lead? b with
  | none =>
      have single (bytes : List UInt8) : pieceAt b bytes = .broken 1 := by
        rw [pieceAt, if_neg ascii, first]
      exact heads_single (by rw [single]; exact broken_ne_char 1) (by rw [single]; rfl)
        fun d _ rest => by rw [single]; exact broken_ne_char 1
  | some lead =>
      cases bytes with
      | nil =>
          have single : pieceAt b [] = .cut 1 := by rw [pieceAt, if_neg ascii, first]
          exact heads_single (by rw [single]; exact cut_ne_char 1) (by rw [single]; rfl)
            (by rintro d ⟨⟩)
      | cons second bytes =>
          by_cases fits : lead.low ≤ second ∧ second ≤ lead.high
          · have same (bytes : List UInt8) : pieceAt b (second :: bytes) =
                pieceTail (lead.bits * 64 + tailBits second) 2 lead.more bytes := by
              rw [pieceAt, if_neg ascii, first]
              simp [fits]
            obtain ⟨tails, rest, rfl, all, outcome⟩ :=
              pieceTail_cases (lead.bits * 64 + tailBits second) 2 lead.more bytes
            rcases outcome with ⟨length, -⟩ | ⟨few, ends, other, size⟩
            · obtain ⟨c, eq⟩ := exists_utf8EncodeChar first fits.1 fits.2 length all
              obtain ⟨lead, tail, parts, piece⟩ := pieceAt_utf8EncodeChar c
              rw [eq, List.cons.injEq] at parts
              obtain ⟨rfl, rfl⟩ := parts
              have heads := Heads.char c rest
              rw [eq] at heads
              have here := piece rest
              rw [List.cons_append] at here
              rw [here]
              exact heads
            · rw [← same] at other size
              exact heads_several first fits.1 fits.2 few all ends other size
          · have single (rest : List UInt8) : pieceAt b (second :: rest) = .broken 1 := by
              rw [pieceAt, if_neg ascii, first]
              simp [fits]
            refine heads_single (by rw [single]; exact broken_ne_char 1) (by rw [single]; rfl) ?_
            intro d next rest
            cases next
            rw [single]
            exact broken_ne_char 1

/-! ## The whole byte string -/

/-- Of two broken parts at one place the other is not longer. -/
theorem Broken.le_length {part rest other behind : List UInt8} (broken : Broken part rest)
    (same : Broken other behind) (whole : part ++ rest = other ++ behind) :
    other.length ≤ part.length := by
  by_contra longer
  rcases List.append_eq_append_iff.1 whole with ⟨more, rfl, rfl⟩ | ⟨more, rfl, -⟩
  · rw [List.length_append, Nat.not_le] at longer
    obtain ⟨b, more, rfl⟩ := List.exists_cons_of_length_pos (Nat.lt_add_right_iff_pos.1 longer)
    have several : (part ++ b :: more).length ≠ 1 := by
      have some := List.length_pos_of_ne_nil broken.some
      rw [List.length_append, List.length_cons]
      omega
    obtain ⟨c, begins⟩ := same.begins.resolve_left several
    refine broken.longest b rfl c (List.IsPrefix.trans ⟨more, ?_⟩ begins)
    rw [List.append_assoc, List.singleton_append]
  · rw [List.length_append] at longer
    omega

/-- The rest of a byte string, behind the part that its first piece is of. -/
theorem drop_of_append {b : UInt8} {bytes part rest : List UInt8} (some : part ≠ [])
    (whole : b :: bytes = part ++ rest) : bytes.drop (part.length - 1) = rest := by
  obtain ⟨d, part, rfl⟩ := List.exists_cons_of_ne_nil some
  rw [List.cons_append, List.cons.injEq] at whole
  rw [whole.2, List.length_cons, Nat.add_sub_cancel, List.drop_left]

theorem utf8Lossy_nil : utf8Lossy [] = [] := by
  rw [utf8Lossy, pieces, List.map_nil]

theorem utf8Lossy_cons (b : UInt8) (bytes : List UInt8) :
    utf8Lossy (b :: bytes) = (match pieceAt b bytes with | .char c => c | _ => '\uFFFD') ::
      utf8Lossy (bytes.drop ((pieceAt b bytes).size - 1)) := by
  rw [utf8Lossy, pieces, List.map_cons]
  rfl

/-- A character is kept. -/
theorem utf8Lossy_char (c : Char) (bytes : List UInt8) :
    utf8Lossy (String.utf8EncodeChar c ++ bytes) = c :: utf8Lossy bytes := by
  rw [utf8Lossy, pieces_append]
  rfl

/-- A broken part is replaced. -/
theorem utf8Lossy_broken {part rest : List UInt8} (broken : Broken part rest) :
    utf8Lossy (part ++ rest) = '\uFFFD' :: utf8Lossy rest := by
  obtain ⟨b, bytes, whole⟩ := List.exists_cons_of_ne_nil
    (List.append_ne_nil_of_left_ne_nil broken.some rest)
  have heads := heads_pieceAt b bytes
  rw [whole, utf8Lossy_cons]
  generalize pieceAt b bytes = piece at heads
  generalize same : b :: bytes = all at heads
  cases heads with
  | char c behind => exact absurd ⟨behind, same.symm.trans whole.symm⟩ (broken.none c)
  | @broken first behind _ other size found =>
      have length := Nat.le_antisymm (broken.le_length found (whole.trans same))
        (found.le_length broken (same.symm.trans whole.symm))
      obtain ⟨rfl, rfl⟩ := List.append_inj (same.symm.trans whole.symm) length
      rw [size, drop_of_append found.some same]
      cases piece with
      | char c => exact absurd rfl (other c)
      | broken | cut => rfl

theorem mended_iff {bytes : List UInt8} {text : List Char} :
    Mended bytes text ↔ text = utf8Lossy bytes := by
  constructor
  · intro mended
    induction mended with
    | nil => exact utf8Lossy_nil.symm
    | char c _ ih => rw [utf8Lossy_char, ih]
    | broken broken _ ih => rw [utf8Lossy_broken broken, ih]
  · rintro rfl
    induction bytes using pieces.induct with
    | case1 =>
        rw [utf8Lossy_nil]
        exact .nil
    | case2 b bytes piece ih =>
        have heads : Heads (b :: bytes) piece := heads_pieceAt b bytes
        generalize piece = piece at heads ih
        generalize whole : b :: bytes = all at heads
        cases heads with
        | char c rest =>
            rw [Piece.size, ← String.length_utf8EncodeChar,
              drop_of_append String.utf8EncodeChar_ne_nil whole] at ih
            rw [utf8Lossy_char]
            exact .char c ih
        | broken other size found =>
            rw [size, drop_of_append found.some whole] at ih
            rw [utf8Lossy_broken found]
            exact .broken found ih

end Text
end DebugBridge
