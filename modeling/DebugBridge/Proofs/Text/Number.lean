import DebugBridge.Text.Blank
import DebugBridge.Text.Number

/-!
# Numbers survive as numerals

The digits of a number are ASCII digits, and reading them gives the number.  What is read as a number
is some digits, with a plus sign or without.
-/

namespace DebugBridge
namespace Text

theorem toList_toString (n : Nat) : (toString n).toList = Nat.toDigits 10 n := by
  rw [Nat.toString_eq_repr, Nat.toList_repr]

theorem toList_toString_ne_nil (n : Nat) : (toString n).toList ≠ [] := by
  rw [toList_toString]
  exact Nat.toDigits_ne_nil

theorem isDigit_iff (c : Char) : isDigit c = true ↔ 48 ≤ c.toNat ∧ c.toNat ≤ 57 := by
  rw [isDigit, Bool.and_eq_true, decide_eq_true_eq, decide_eq_true_eq, Char.le_def, Char.le_def,
    UInt32.le_iff_toNat_le, UInt32.le_iff_toNat_le]
  rfl

theorem isBlank_of_isDigit {c : Char} (digit : isDigit c = true) : isBlank c = false := by
  rw [isDigit_iff] at digit
  rw [Bool.eq_false_iff]
  intro blank
  simp only [isBlank, Bool.or_eq_true, Bool.and_eq_true, decide_eq_true_eq, beq_iff_eq] at blank
  omega

theorem isDigit_of_mem_toString {n : Nat} {c : Char} (member : c ∈ (toString n).toList) :
    isDigit c = true := by
  rw [toList_toString] at member
  have digit := Nat.isDigit_of_mem_toDigits (by decide) (by decide) member
  rw [Char.isDigit, Bool.and_eq_true, decide_eq_true_eq, decide_eq_true_eq] at digit
  rw [isDigit, Bool.and_eq_true, decide_eq_true_eq, decide_eq_true_eq]
  exact digit

theorem digitsValue_toString (n : Nat) : digitsValue (toString n).toList = n := by
  have value : Nat.ofDigitChars 10 (Nat.toDigits 10 n) 0 = n := Nat.ofDigitChars_ten_toDigits
  rw [Nat.ofDigitChars_eq_foldl] at value
  rw [toList_toString, digitsValue]
  simpa only [Nat.mul_comm] using value

theorem decimal?_toString (n : Nat) : decimal? (toString n).toList = some n := by
  have digits : (toString n).toList.all isDigit = true :=
    List.all_eq_true.2 fun _ member => isDigit_of_mem_toString member
  have nonempty : (toString n).toList.isEmpty = false :=
    List.isEmpty_eq_false_iff.2 (toList_toString_ne_nil n)
  rw [decimal?, nonempty, digits, digitsValue_toString]
  rfl

/-- Reading the digits of a number gives the number, if the bound allows it. -/
theorem bounded?_toString {limit n : Nat} (bound : n ≤ limit) :
    bounded? limit (toString n).toList = some n := by
  have unsigned : ∀ digits, (toString n).toList ≠ '+' :: digits := by
    intro digits eq
    have digit : isDigit '+' = true :=
      isDigit_of_mem_toString (n := n) (eq ▸ List.mem_cons_self)
    cases digit
  rw [bounded?, decimal?_toString]
  · simp [bound]
  · exact unsigned

/-- A signed number in digits: the digits of a natural number, with a minus sign before them if it is
negative. -/
theorem toList_toString_int (value : Int) : (toString value).toList =
    if 0 ≤ value then (toString value.toNat).toList else '-' :: (toString (-value).toNat).toList := by
  rw [Int.toString_eq_repr, Int.repr_eq_if]
  split
  · rfl
  · rw [String.toList_append]
    rfl

/-- Reading the digits of a signed number gives the number, if the bounds allow it. -/
theorem boundedInt?_toString {limit : Nat} {value : Int} (lower : -(limit + 1 : Int) ≤ value)
    (upper : value ≤ limit) : boundedInt? limit (toString value).toList = some value := by
  rw [toList_toString_int]
  split
  next natural =>
    have bound : value.toNat ≤ limit := by omega
    have unsigned : ∀ digits, (toString value.toNat).toList ≠ '-' :: digits := by
      intro digits eq
      have digit : isDigit '-' = true :=
        isDigit_of_mem_toString (n := value.toNat) (eq ▸ List.mem_cons_self)
      cases digit
    rw [boundedInt?, bounded?_toString bound, Option.map_some, Int.ofNat_eq_natCast,
      Int.toNat_of_nonneg natural]
    exact unsigned
  next negative =>
    have bound : (-value).toNat ≤ limit + 1 := by omega
    have size : -((-value).toNat : Int) = value := by omega
    rw [boundedInt?, decimal?_toString, Option.bind_eq_bind, Option.bind_some, if_pos bound, size]

/-! ## What is read -/

/-- A non-empty text of ASCII digits. -/
structure Numeral where
  /-- The digits. -/
  digits : List Char
  /-- There is one. -/
  nonempty : digits ≠ []
  /-- Each is one. -/
  numeric : ∀ c ∈ digits, isDigit c = true

/-- The number in decimal notation. -/
def Numeral.value (numeral : Numeral) : Nat := digitsValue numeral.digits

/-- The numeral, with a plus sign in front or without. -/
def Numeral.print (plus : Bool) (numeral : Numeral) : List Char :=
  (if plus then ['+'] else []) ++ numeral.digits

theorem Numeral.ne_plus (numeral : Numeral) (rest : List Char) : numeral.digits ≠ '+' :: rest := by
  intro plus
  have digit := numeral.numeric '+' (plus ▸ List.mem_cons_self)
  cases digit

theorem decimal?_digits (numeral : Numeral) : decimal? numeral.digits = some numeral.value := by
  rw [decimal?, List.isEmpty_eq_false_iff.2 numeral.nonempty, List.all_eq_true.2 numeral.numeric]
  rfl

theorem exists_of_decimal? {text : List Char} {n : Nat} (read : decimal? text = some n) :
    ∃ numeral : Numeral, text = numeral.digits := by
  rw [decimal?] at read
  split at read
  · next digits =>
    rw [Bool.and_eq_true, Bool.not_eq_true', List.isEmpty_eq_false_iff, List.all_eq_true] at digits
    exact ⟨⟨text, digits.1, digits.2⟩, rfl⟩
  · cases read

/-- A plus sign is passed over. -/
theorem bounded?_plus_eq_some_iff {limit n : Nat} {digits : List Char} :
    bounded? limit ('+' :: digits) = some n ↔ decimal? digits = some n ∧ n ≤ limit := by
  rw [bounded?, Option.bind_eq_bind, Option.bind_eq_some_iff]
  constructor
  · rintro ⟨value, read, kept⟩
    split at kept
    · next bound =>
      cases kept
      exact ⟨read, bound⟩
    · cases kept
  · rintro ⟨read, bound⟩
    exact ⟨n, read, if_pos bound⟩

/-- Without one, all characters count. -/
theorem bounded?_of_ne {limit : Nat} {text : List Char} (unsigned : ∀ rest, text ≠ '+' :: rest) :
    bounded? limit text = bounded? limit ('+' :: text) := by
  rw [bounded?, bounded?]
  exact unsigned

/-- A numeral is read as its value, up to the limit. -/
theorem bounded?_print {limit n : Nat} (plus : Bool) (numeral : Numeral) :
    bounded? limit (numeral.print plus) = some n ↔ n = numeral.value ∧ n ≤ limit := by
  have signed : bounded? limit (numeral.print plus) = bounded? limit ('+' :: numeral.digits) := by
    cases plus with
    | true => rfl
    | false => exact bounded?_of_ne numeral.ne_plus
  rw [signed, bounded?_plus_eq_some_iff, decimal?_digits, Option.some_inj, eq_comm]

/-- Nothing but numerals is read. -/
theorem exists_of_bounded? {limit n : Nat} {text : List Char} (read : bounded? limit text = some n) :
    ∃ (plus : Bool) (numeral : Numeral), text = numeral.print plus := by
  by_cases plus : ∃ rest, text = '+' :: rest
  · obtain ⟨rest, rfl⟩ := plus
    obtain ⟨numeral, rfl⟩ := exists_of_decimal? (bounded?_plus_eq_some_iff.1 read).1
    exact ⟨true, numeral, rfl⟩
  · rw [bounded?_of_ne (not_exists.1 plus)] at read
    obtain ⟨numeral, rfl⟩ := exists_of_decimal? (bounded?_plus_eq_some_iff.1 read).1
    exact ⟨false, numeral, rfl⟩

end Text
end DebugBridge
