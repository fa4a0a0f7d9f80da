import DebugBridge.Text.Base64
import DebugBridge.Proofs.Text.Utf8

/-!
# Bytes survive as base-64 text

Decoding the base-64 text of any bytes gives these bytes.  The text is some groups of four symbols
and a last group that may be padded; the two are decoded by different functions, so each is taken up
for itself.
-/

namespace DebugBridge
namespace Text
namespace Base64

/-- The byte of the symbol for a value. -/
def symbolByte (value : Nat) : UInt8 := UInt8.ofNat (symbol value).toNat

/-- The symbol for a value is one byte that is not the padding and has that value. -/
theorem symbolByte_spec : ∀ value < 64,
    String.utf8EncodeChar (symbol value) = [symbolByte value] ∧ symbolByte value ≠ pad ∧
      value? (symbolByte value) = some value := by
  decide

theorem utf8_symbol {value : Nat} (small : value < 64) (rest : List Char) :
    utf8 (symbol value :: rest) = symbolByte value :: utf8 rest := by
  rw [utf8, List.flatMap_cons, (symbolByte_spec value small).1, List.singleton_append, ← utf8]

theorem values_map (offset : Nat) {found : List Nat} (small : ∀ value ∈ found, value < 64) :
    values offset (found.map symbolByte) = .ok found := by
  induction found generalizing offset with
  | nil => rfl
  | cons value found ih =>
      rw [List.map_cons, values, (symbolByte_spec value (small value List.mem_cons_self)).2.2,
        ih (offset + 1) fun other member => small other (List.mem_cons_of_mem value member)]
      rfl

theorem encode_ne_nil {bytes : List UInt8} (nonempty : bytes ≠ []) : encode bytes ≠ [] := by
  induction bytes using encode.induct with
  | case1 => exact absurd rfl nonempty
  | case2 | case3 | case4 => simp [encode]

/-- The characters of base-64 text. -/
theorem mem_encode {bytes : List UInt8} {c : Char} (member : c ∈ encode bytes) :
    c = '=' ∨ ∃ value < 64, c = symbol value := by
  induction bytes using encode.induct with
  | case1 => cases member
  | case2 a =>
      have bound := a.toNat_lt
      simp only [encode, List.mem_cons, List.not_mem_nil, or_false] at member
      rcases member with rfl | rfl | rfl | rfl
      · exact Or.inr ⟨_, by omega, rfl⟩
      · exact Or.inr ⟨_, by omega, rfl⟩
      · exact Or.inl rfl
      · exact Or.inl rfl
  | case3 a b =>
      have boundA := a.toNat_lt
      have boundB := b.toNat_lt
      simp only [encode, List.mem_cons, List.not_mem_nil, or_false] at member
      rcases member with rfl | rfl | rfl | rfl
      · exact Or.inr ⟨_, by omega, rfl⟩
      · exact Or.inr ⟨_, by omega, rfl⟩
      · exact Or.inr ⟨_, by omega, rfl⟩
      · exact Or.inl rfl
  | case4 a b c rest ih =>
      have boundA := a.toNat_lt
      have boundB := b.toNat_lt
      have boundC := c.toNat_lt
      simp only [encode, List.mem_cons] at member
      rcases member with rfl | rfl | rfl | rfl | later
      · exact Or.inr ⟨_, by omega, rfl⟩
      · exact Or.inr ⟨_, by omega, rfl⟩
      · exact Or.inr ⟨_, by omega, rfl⟩
      · exact Or.inr ⟨_, by omega, rfl⟩
      · exact ih later

/-! ## The last group -/

/-- Padding after at least two symbols is left out. -/
theorem lastSymbols_map (offset : Nat) (found : List Nat) (small : ∀ value ∈ found, value < 64)
    (several : 2 ≤ found.length) (missing : Nat) :
    lastSymbols offset (found.map symbolByte ++ List.replicate missing pad) = .ok found := by
  have symbols : ∀ b ∈ found.map symbolByte, (b != pad) = true := by
    intro b member
    obtain ⟨value, inFound, rfl⟩ := List.mem_map.1 member
    exact bne_iff_ne.2 (symbolByte_spec value (small value inFound)).2.1
  have front : (found.map symbolByte ++ List.replicate missing pad).takeWhile (· != pad) =
      found.map symbolByte := by
    rw [List.takeWhile_append_of_pos symbols]
    cases missing <;> simp [List.replicate_succ]
  have back : (found.map symbolByte ++ List.replicate missing pad).dropWhile (· != pad) =
      List.replicate missing pad := by
    rw [List.dropWhile_append_of_pos symbols]
    cases missing <;> simp [List.replicate_succ]
  rw [lastSymbols, front, back, values_map offset small]
  have enough : ¬ found.length < 2 := by omega
  simp [enough]

theorem lastGroup_two (offset : Nat) {a b : Nat} (first : a < 64) (second : b < 64)
    (unused : b % 16 = 0) :
    lastGroup offset [symbolByte a, symbolByte b, pad, pad] =
      .ok [UInt8.ofNat (a * 4 + b / 16)] := by
  have found := lastSymbols_map offset [a, b] (by simp [first, second]) (by simp) 2
  change lastSymbols offset [symbolByte a, symbolByte b, pad, pad] = _ at found
  rw [lastGroup, found]
  simp [unused, bind, Except.bind, pure, Except.pure]

theorem lastGroup_three (offset : Nat) {a b c : Nat} (first : a < 64) (second : b < 64)
    (third : c < 64) (unused : c % 4 = 0) :
    lastGroup offset [symbolByte a, symbolByte b, symbolByte c, pad] =
      .ok [UInt8.ofNat (a * 4 + b / 16), UInt8.ofNat (b % 16 * 16 + c / 4)] := by
  have found := lastSymbols_map offset [a, b, c] (by simp [first, second, third]) (by simp) 1
  change lastSymbols offset [symbolByte a, symbolByte b, symbolByte c, pad] = _ at found
  rw [lastGroup, found]
  simp [unused, bind, Except.bind, pure, Except.pure]

theorem lastGroup_four (offset : Nat) {a b c d : Nat} (first : a < 64) (second : b < 64)
    (third : c < 64) (fourth : d < 64) :
    lastGroup offset [symbolByte a, symbolByte b, symbolByte c, symbolByte d] =
      .ok (groups [a, b, c, d]) := by
  have found := lastSymbols_map offset [a, b, c, d] (by simp [first, second, third, fourth])
    (by simp) 0
  change lastSymbols offset [symbolByte a, symbolByte b, symbolByte c, symbolByte d] = _ at found
  rw [lastGroup, found]
  simp [bind, Except.bind, pure, Except.pure]

/-! ## Bytes and their values -/

theorem byte_first (a : UInt8) {more : Nat} (small : more < 16) :
    UInt8.ofNat (a.toNat / 4 * 4 + (a.toNat % 4 * 16 + more) / 16) = a := by
  have value : a.toNat / 4 * 4 + (a.toNat % 4 * 16 + more) / 16 = a.toNat := by omega
  rw [value, UInt8.ofNat_toNat]

theorem byte_second (a b : UInt8) {more : Nat} (small : more < 4) :
    UInt8.ofNat ((a.toNat % 4 * 16 + b.toNat / 16) % 16 * 16 + (b.toNat % 16 * 4 + more) / 4) =
      b := by
  have bound := b.toNat_lt
  have value : (a.toNat % 4 * 16 + b.toNat / 16) % 16 * 16 + (b.toNat % 16 * 4 + more) / 4 =
      b.toNat := by omega
  rw [value, UInt8.ofNat_toNat]

theorem byte_third (b c : UInt8) :
    UInt8.ofNat ((b.toNat % 16 * 4 + c.toNat / 64) % 4 * 64 + c.toNat % 64) = c := by
  have bound := c.toNat_lt
  have value : (b.toNat % 16 * 4 + c.toNat / 64) % 4 * 64 + c.toNat % 64 = c.toNat := by omega
  rw [value, UInt8.ofNat_toNat]

/-- The values of the symbols for three bytes. -/
def sextets (a b c : UInt8) : List Nat :=
  [a.toNat / 4, a.toNat % 4 * 16 + b.toNat / 16, b.toNat % 16 * 4 + c.toNat / 64, c.toNat % 64]

theorem sextets_lt (a b c : UInt8) : ∀ value ∈ sextets a b c, value < 64 := by
  have boundA := a.toNat_lt
  have boundB := b.toNat_lt
  have boundC := c.toNat_lt
  simp only [sextets, List.mem_cons, List.not_mem_nil, or_false, forall_eq_or_imp, forall_eq]
  omega

theorem groups_sextets (a b c : UInt8) (rest : List Nat) :
    groups (sextets a b c ++ rest) = a :: b :: c :: groups rest := by
  have boundB := b.toNat_lt
  have boundC := c.toNat_lt
  rw [sextets]
  simp only [List.cons_append, List.nil_append, groups]
  rw [byte_first a (by omega), byte_second a b (by omega), byte_third b c]

theorem utf8_map_symbol {found : List Nat} (small : ∀ value ∈ found, value < 64)
    (rest : List Char) :
    utf8 (found.map symbol ++ rest) = found.map symbolByte ++ utf8 rest := by
  induction found with
  | nil => rfl
  | cons value found ih =>
      rw [List.map_cons, List.cons_append, utf8_symbol (small value List.mem_cons_self),
        ih fun other member => small other (List.mem_cons_of_mem value member)]
      rfl

theorem utf8_encode_three (a b c : UInt8) (rest : List UInt8) :
    utf8 (encode (a :: b :: c :: rest)) = (sextets a b c).map symbolByte ++ utf8 (encode rest) := by
  rw [← utf8_map_symbol (sextets_lt a b c), encode]
  rfl

/-- One to three bytes make the last group, whose symbols give them back. -/
theorem lastGroup_encode (offset : Nat) {bytes : List UInt8} (nonempty : bytes ≠ [])
    (few : bytes.length ≤ 3) :
    lastGroup offset (utf8 (encode bytes)) = .ok bytes ∧ (utf8 (encode bytes)).length = 4 := by
  induction bytes using encode.induct with
  | case1 => exact absurd rfl nonempty
  | case2 a =>
      have bound := a.toNat_lt
      have text : utf8 (encode [a]) =
          [symbolByte (a.toNat / 4), symbolByte (a.toNat % 4 * 16), pad, pad] := by
        rw [encode, utf8_symbol (by omega), utf8_symbol (by omega)]
        rfl
      have first : UInt8.ofNat (a.toNat / 4 * 4 + a.toNat % 4 * 16 / 16) = a :=
        byte_first a (Nat.zero_lt_succ 15)
      rw [text, lastGroup_two offset (by omega) (by omega) (by omega), first]
      exact ⟨rfl, rfl⟩
  | case3 a b =>
      have boundA := a.toNat_lt
      have boundB := b.toNat_lt
      have text : utf8 (encode [a, b]) =
          [symbolByte (a.toNat / 4), symbolByte (a.toNat % 4 * 16 + b.toNat / 16),
            symbolByte (b.toNat % 16 * 4), pad] := by
        rw [encode, utf8_symbol (by omega), utf8_symbol (by omega), utf8_symbol (by omega)]
        rfl
      have second : UInt8.ofNat ((a.toNat % 4 * 16 + b.toNat / 16) % 16 * 16 +
          b.toNat % 16 * 4 / 4) = b :=
        byte_second a b (Nat.zero_lt_succ 3)
      rw [text, lastGroup_three offset (by omega) (by omega) (by omega) (by omega),
        byte_first a (by omega), second]
      exact ⟨rfl, rfl⟩
  | case4 a b c rest =>
      simp only [List.length_cons] at few
      obtain rfl : rest = [] := List.length_eq_zero_iff.1 (by omega)
      have small := sextets_lt a b c
      simp only [sextets, List.forall_mem_cons, List.not_mem_nil, false_implies, implies_true,
        and_true] at small
      obtain ⟨first, second, third, fourth⟩ := small
      have whole := lastGroup_four offset first second third fourth
      have three := groups_sextets a b c []
      rw [List.append_nil, sextets] at three
      rw [three] at whole
      rw [utf8_encode_three]
      exact ⟨whole, rfl⟩

/-- The text of some bytes is that of whole groups of three and that of one to three more. -/
theorem encode_split {bytes : List UInt8} (nonempty : bytes ≠ []) :
    ∃ found last, bytes = groups found ++ last ∧ (∀ value ∈ found, value < 64) ∧
      found.length % 4 = 0 ∧ last ≠ [] ∧ last.length ≤ 3 ∧
      utf8 (encode bytes) = found.map symbolByte ++ utf8 (encode last) := by
  induction bytes using encode.induct with
  | case1 => exact absurd rfl nonempty
  | case2 a => exact ⟨[], [a], rfl, by simp, rfl, by simp, by simp, rfl⟩
  | case3 a b => exact ⟨[], [a, b], rfl, by simp, rfl, by simp, by simp, rfl⟩
  | case4 a b c rest ih =>
      by_cases done : rest = []
      · subst done
        exact ⟨[], [a, b, c], rfl, by simp, rfl, by simp, by simp, rfl⟩
      · obtain ⟨found, last, eq, small, whole, some, few, text⟩ := ih done
        refine ⟨sextets a b c ++ found, last, ?_, ?_, ?_, some, few, ?_⟩
        · rw [groups_sextets, eq]
          rfl
        · intro value member
          rcases List.mem_append.1 member with first | later
          · exact sextets_lt a b c value first
          · exact small value later
        · rw [List.length_append, sextets]
          simp only [List.length_cons, List.length_nil]
          omega
        · rw [utf8_encode_three, text, List.map_append, List.append_assoc]

/-- Decoding the text of some bytes gives the bytes. -/
theorem decode_encode (bytes : List UInt8) : decode (utf8 (encode bytes)) = .ok bytes := by
  by_cases empty : bytes = []
  · subst empty
    rfl
  · obtain ⟨found, last, eq, small, whole, some, few, text⟩ := encode_split empty
    obtain ⟨back, length⟩ := lastGroup_encode found.length some few
    have size : (utf8 (encode bytes)).length = found.length + 4 := by
      rw [text, List.length_append, List.length_map, length]
    have even : (utf8 (encode bytes)).length % 4 = 0 := by omega
    have front : (utf8 (encode bytes)).length - 4 = (found.map symbolByte).length := by
      rw [size, List.length_map, Nat.add_sub_cancel]
    rw [decode, even, front, text]
    simp [values_map 0 small, back, ← eq, bind, Except.bind, pure, Except.pure]

end Base64
end Text
end DebugBridge
