import DebugBridge.Proofs.Text.Base64

/-!
# No other text is base-64

Decoding refuses every text but those that bytes are encoded as.  Each function of the decoder is
inverted for itself: what it accepts are symbols for the values it gives, and then the padding that
makes the last group whole.
-/

namespace DebugBridge
namespace Text
namespace Base64

/-- A byte that has a value is the symbol for it. -/
theorem value?_spec {b : UInt8} {value : Nat} (has : value? b = some value) :
    value < 64 ∧ b = symbolByte value := by
  have all : ∀ code < 256, ∀ value ∈ value? (UInt8.ofNat code),
      value < 64 ∧ UInt8.ofNat code = symbolByte value := by
    decide +kernel
  have this := all b.toNat b.toNat_lt value
  rw [UInt8.ofNat_toNat] at this
  exact this has

theorem values_eq_ok_iff {offset : Nat} {text : List UInt8} {found : List Nat} :
    values offset text = .ok found ↔
      text = found.map symbolByte ∧ ∀ value ∈ found, value < 64 := by
  constructor
  · intro read
    induction text generalizing offset found with
    | nil =>
        cases read
        exact ⟨rfl, nofun⟩
    | cons b text ih =>
        rw [values] at read
        split at read
        next => cases read
        next value has =>
            obtain ⟨small, rfl⟩ := value?_spec has
            cases rest : values (offset + 1) text with
            | error fault =>
                rw [rest] at read
                cases read
            | ok more =>
                rw [rest] at read
                cases read
                obtain ⟨rfl, others⟩ := ih rest
                exact ⟨rfl, List.forall_mem_cons.2 ⟨small, others⟩⟩
  · rintro ⟨rfl, small⟩
    exact values_map offset small

/-- The last group is symbols and padding. -/
theorem lastSymbols_spec {offset : Nat} {group : List UInt8} {found : List Nat}
    (read : lastSymbols offset group = .ok found) :
    ∃ missing, group = found.map symbolByte ++ List.replicate missing pad ∧
      ∀ value ∈ found, value < 64 := by
  have whole := List.takeWhile_append_dropWhile (p := (· != pad)) (l := group)
  rw [lastSymbols] at read
  generalize group.takeWhile (· != pad) = symbols at read whole
  generalize group.dropWhile (· != pad) = tail at read whole
  cases decoded : values offset symbols with
  | error fault =>
      rw [decoded] at read
      cases read
  | ok values =>
      obtain ⟨rfl, small⟩ := values_eq_ok_iff.1 decoded
      rw [decoded] at read
      dsimp only at read
      split at read
      next none =>
          cases read
          rw [List.isEmpty_iff.1 none] at whole
          exact ⟨0, whole.symm, small⟩
      next some =>
          split at read
          next => cases read
          next padded =>
              cases read
              rw [Bool.or_eq_true, not_or, Bool.not_eq_true, Bool.not_eq_true,
                List.any_eq_false] at padded
              have pads : tail = List.replicate tail.length pad :=
                List.eq_replicate_iff.2 ⟨rfl, fun b member => by simpa using padded.2 b member⟩
              exact ⟨tail.length, by rw [← pads, whole], small⟩

/-! ## Values and their bytes -/

theorem utf8_encode_one {a b : Nat} (first : a < 64) (second : b < 64) (unused : b % 16 = 0) :
    utf8 (encode [UInt8.ofNat (a * 4 + b / 16)]) = [symbolByte a, symbolByte b, pad, pad] := by
  rw [encode, toNat_byte (by omega)]
  have same : (a * 4 + b / 16) / 4 = a ∧ (a * 4 + b / 16) % 4 * 16 = b := by omega
  rw [same.1, same.2, utf8_symbol first, utf8_symbol second]
  rfl

theorem utf8_encode_two {a b c : Nat} (first : a < 64) (second : b < 64) (third : c < 64)
    (unused : c % 4 = 0) :
    utf8 (encode [UInt8.ofNat (a * 4 + b / 16), UInt8.ofNat (b % 16 * 16 + c / 4)]) =
      [symbolByte a, symbolByte b, symbolByte c, pad] := by
  rw [encode, toNat_byte (by omega), toNat_byte (by omega)]
  have same : (a * 4 + b / 16) / 4 = a ∧
      (a * 4 + b / 16) % 4 * 16 + (b % 16 * 16 + c / 4) / 16 = b ∧
      (b % 16 * 16 + c / 4) % 16 * 4 = c := by omega
  rw [same.1, same.2.1, same.2.2, utf8_symbol first, utf8_symbol second, utf8_symbol third]
  rfl

/-- The bytes of whole groups are encoded as the symbols of these. -/
theorem utf8_encode_groups {found : List Nat} (small : ∀ value ∈ found, value < 64)
    (whole : found.length % 4 = 0) (rest : List UInt8) :
    utf8 (encode (groups found ++ rest)) = found.map symbolByte ++ utf8 (encode rest) := by
  induction found using groups.induct with
  | case1 a b c d found ih =>
      simp only [List.forall_mem_cons] at small
      obtain ⟨first, second, third, fourth, others⟩ := small
      have later := ih others (by simp only [List.length_cons] at whole; omega)
      rw [groups, List.cons_append, List.cons_append, List.cons_append, utf8_encode_three, later,
        sextets, toNat_byte (by omega), toNat_byte (by omega), toNat_byte (by omega)]
      have same : (a * 4 + b / 16) / 4 = a ∧
          (a * 4 + b / 16) % 4 * 16 + (b % 16 * 16 + c / 4) / 16 = b ∧
          (b % 16 * 16 + c / 4) % 16 * 4 + (c % 4 * 64 + d) / 64 = c ∧
          (c % 4 * 64 + d) % 64 = d := by omega
      rw [same.1, same.2.1, same.2.2.1, same.2.2.2]
      rfl
  | case2 found short =>
      rcases found with _ | ⟨a, _ | ⟨b, _ | ⟨c, _ | ⟨d, found⟩⟩⟩⟩
      · rfl
      · cases whole
      · cases whole
      · cases whole
      · exact absurd rfl (short a b c d found)

/-- A last group that is accepted has all its padding and no unused bits set. -/
theorem eq_of_checks {length rest : Nat} {fault : Fault} {bytes found : List UInt8}
    (read : (if length != 4 then .error .padding else if rest != 0 then .error fault
      else .ok bytes) = (.ok found : Except Fault (List UInt8))) :
    length = 4 ∧ rest = 0 ∧ bytes = found := by
  split at read
  next => cases read
  next padded =>
      split at read
      next => cases read
      next unused =>
          rw [Bool.not_eq_true, bne_eq_false_iff_eq] at padded unused
          exact ⟨padded, unused, Except.ok.inj read⟩

theorem lastGroup_spec {offset : Nat} {group bytes : List UInt8} (few : group.length ≤ 4)
    (read : lastGroup offset group = .ok bytes) :
    group = utf8 (encode bytes) := by
  rw [lastGroup] at read
  cases symbols : lastSymbols offset group with
  | error fault =>
      rw [symbols] at read
      cases read
  | ok found =>
      obtain ⟨missing, rfl, small⟩ := lastSymbols_spec symbols
      rw [symbols] at read
      simp only [bind, Except.bind, pure, Except.pure] at read
      split at read
      next none =>
          cases read
          exact List.isEmpty_iff.1 none
      next some =>
          rw [List.length_append, List.length_map, List.length_replicate] at few read
          split at read
          next a b =>
              obtain ⟨padded, unused, rfl⟩ := eq_of_checks read
              obtain rfl : missing = 2 := Nat.add_left_cancel padded
              obtain ⟨first, second⟩ : a < 64 ∧ b < 64 := by simpa using small
              exact (utf8_encode_one first second unused).symm
          next a b c =>
              obtain ⟨padded, unused, rfl⟩ := eq_of_checks read
              obtain rfl : missing = 1 := Nat.add_left_cancel padded
              obtain ⟨first, second, third⟩ : a < 64 ∧ b < 64 ∧ c < 64 := by simpa using small
              exact (utf8_encode_two first second third unused).symm
          next a b c d =>
              cases read
              obtain rfl : missing = 0 := Nat.le_zero.1 (Nat.le_of_add_le_add_left few)
              have whole := utf8_encode_groups small (Nat.mod_self 4) []
              rw [List.append_nil] at whole
              exact whole.symm
          next => cases read

/-- What is decoded is the text of the bytes that it gives. -/
theorem utf8_encode_of_decode {text bytes : List UInt8} (read : decode text = .ok bytes) :
    text = utf8 (encode bytes) := by
  rw [decode] at read
  dsimp only at read
  split at read
  next => cases read
  next =>
      generalize start : (if text.length % 4 == 0 then text.length - 4
        else text.length - text.length % 4) = whole at read
      cases front : values 0 (text.take whole) with
      | error fault =>
          rw [front] at read
          cases read
      | ok found =>
          rw [front] at read
          cases back : lastGroup whole (text.drop whole) with
          | error fault =>
              simp only [back, bind, Except.bind] at read
              cases read
          | ok last =>
              simp only [back, bind, Except.bind, pure, Except.pure] at read
              cases read
              obtain ⟨symbols, small⟩ := values_eq_ok_iff.1 front
              have size := congrArg List.length symbols
              rw [List.length_take, List.length_map] at size
              have few : (text.drop whole).length ≤ 4 ∧ found.length % 4 = 0 := by
                rw [List.length_drop]
                split at start
                next even =>
                    rw [beq_iff_eq] at even
                    omega
                next => omega
              rw [utf8_encode_groups small few.2, ← symbols, ← lastGroup_spec few.1 back,
                List.take_append_drop]

/-- Decoding accepts the texts that bytes are encoded as, and gives these bytes. -/
theorem decode_eq_ok_iff {text bytes : List UInt8} :
    decode text = .ok bytes ↔ text = utf8 (encode bytes) := by
  constructor
  · exact utf8_encode_of_decode
  · rintro rfl
    exact decode_encode bytes

theorem decode_utf8_iff {text : List Char} {bytes : List UInt8} :
    decode (utf8 text) = .ok bytes ↔ text = encode bytes := by
  rw [decode_eq_ok_iff]
  refine ⟨fun same => ?_, congrArg utf8⟩
  rw [← utf8Lossy_utf8 text, same, utf8Lossy_utf8]

end Base64
end Text
end DebugBridge
