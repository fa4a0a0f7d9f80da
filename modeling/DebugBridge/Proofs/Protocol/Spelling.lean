import DebugBridge.Protocol.Markup
import DebugBridge.Proofs.Text.Number
import Mathlib

/-!
# Spellings of characters

A character of a text may be written as it is, or as a reference: one of the five entities, or the
number of the character in decimal or hexadecimal digits.  However the characters of a text are
spelled, what is read is the text.
-/

namespace DebugBridge
namespace Markup

/-- The entities that need no declaration. -/
inductive Entity where
  /-- An opening bracket. -/
  | lt
  /-- A closing bracket. -/
  | gt
  /-- An ampersand. -/
  | amp
  /-- A single quote. -/
  | apos
  /-- A double quote. -/
  | quot

namespace Entity

/-- What an entity stands for. -/
def char : Entity → Char
  | .lt => '<'
  | .gt => '>'
  | .amp => '&'
  | .apos => '\x27'
  | .quot => '\x22'

/-- The name of an entity. -/
def name : Entity → List Char
  | .lt => ['l', 't']
  | .gt => ['g', 't']
  | .amp => ['a', 'm', 'p']
  | .apos => ['a', 'p', 'o', 's']
  | .quot => ['q', 'u', 'o', 't']

end Entity

/-- A reference to a character. -/
inductive Reference where
  /-- An entity. -/
  | entity (named : Entity)
  /-- The number of a character, with zeros in front. -/
  | decimal (c : Char) (visible : c ≠ '\x00') (zeros : Nat)
  /-- The number of a character in hexadecimal digits, capitals or not, with zeros in front. -/
  | hexadecimal (c : Char) (visible : c ≠ '\x00') (zeros : Nat) (digits : List Char)
    (numeral : digits.map Char.toLower = Nat.toDigits 16 c.toNat)

namespace Reference

/-- The character that is referred to. -/
def char : Reference → Char
  | .entity named => named.char
  | .decimal c _ _ | .hexadecimal c _ _ _ _ => c

/-- What stands between the ampersand and the semicolon. -/
def name : Reference → List Char
  | .entity named => named.name
  | .decimal c _ zeros => '#' :: (List.replicate zeros '0' ++ (toString c.toNat).toList)
  | .hexadecimal _ _ zeros digits _ => '#' :: 'x' :: (List.replicate zeros '0' ++ digits)

end Reference

/-- A character as it is written in a text in which some characters are special. -/
inductive Letter (special : List Char) where
  /-- The character itself. -/
  | plain (c : Char) (ordinary : c ∉ special)
  /-- A reference to it. -/
  | reference (inner : Reference)

variable {special : List Char}

namespace Letter

/-- The character that is meant. -/
def char : Letter special → Char
  | .plain c _ => c
  | .reference inner => inner.char

/-- What is written. -/
def print : Letter special → List Char
  | .plain c _ => [c]
  | .reference inner => '&' :: inner.name ++ [';']

end Letter

/-- The text that is written. -/
def spelled (letters : List (Letter special)) : List Char := letters.flatMap Letter.print

/-- The text that is meant. -/
def meant (letters : List (Letter special)) : List Char := letters.map Letter.char

/-! ## Numerals -/

theorem charOf?_toNat {c : Char} (visible : c ≠ '\x00') : charOf? c.toNat = some c := by
  have nonzero : c.toNat ≠ 0 := fun zero => visible (Char.toNat_inj.1 zero)
  have valid : c.toNat.isValidChar := c.valid
  rw [charOf?, Char.ofNat_toNat, if_pos]
  simp [nonzero, valid]

theorem digitsValue_zeros (zeros : Nat) (digits : List Char) :
    Text.digitsValue (List.replicate zeros '0' ++ digits) = Text.digitsValue digits := by
  induction zeros with
  | zero => rfl
  | succ zeros ih => exact ih

/-- Zeros in front do not count. -/
theorem decimal?_zeros (zeros n : Nat) :
    Text.decimal? (List.replicate zeros '0' ++ (toString n).toList) = some n := by
  have digits : (List.replicate zeros '0' ++ (toString n).toList).all Text.isDigit = true := by
    rw [List.all_append, Bool.and_eq_true, List.all_eq_true, List.all_eq_true]
    exact ⟨fun c zero => (List.eq_of_mem_replicate zero).symm ▸ rfl,
      fun _ member => Text.isDigit_of_mem_toString member⟩
  have nonempty : (List.replicate zeros '0' ++ (toString n).toList).isEmpty = false := by
    rw [List.isEmpty_eq_false_iff]
    exact List.append_ne_nil_of_right_ne_nil _ (Text.toList_toString_ne_nil n)
  rw [Text.decimal?, digits, nonempty, digitsValue_zeros, Text.digitsValue_toString]
  rfl

/-- A character is a small letter or digit, or becomes one by adding thirty-two. -/
theorem eq_or_of_toLower {c d : Char} (lower : c.toLower = d) :
    c = d ∨ c.toNat ≤ 90 ∧ 65 ≤ c.toNat ∧ c.toNat = d.toNat - 32 := by
  rw [Char.toLower] at lower
  split at lower
  · next capital =>
    obtain ⟨low, high⟩ := capital
    subst lower
    rw [ge_iff_le, UInt32.le_iff_toNat_le] at low
    rw [UInt32.le_iff_toNat_le] at high
    have value : (c.val + ('a'.val - 'A'.val)).toNat = c.val.toNat + 32 := by
      rw [UInt32.toNat_add]
      have : ('a'.val - 'A'.val).toNat = 32 := by decide
      have : ('Z'.val).toNat = 90 := by decide
      omega
    exact .inr ⟨high, low, by rw [Char.toNat, Char.toNat, value, Nat.add_sub_cancel]⟩
  · exact .inl lower

/-- A hexadecimal digit is read, capital or not. -/
theorem hexDigit?_of_toLower {c : Char} {value : Nat} (small : value < 16)
    (digit : c.toLower = Nat.digitChar value) : hexDigit? c = some value := by
  have lower : ∀ value < 16, hexDigit? (Nat.digitChar value) = some value := by decide
  have upper : ∀ value < 16, 65 ≤ (Nat.digitChar value).toNat - 32 →
      hexDigit? (Char.ofNat ((Nat.digitChar value).toNat - 32)) = some value := by decide
  rcases eq_or_of_toLower digit with rfl | ⟨-, low, eq⟩
  · exact lower value small
  · rw [← Char.ofNat_toNat c, eq]
    exact upper value small (eq ▸ low)

/-- One more digit of a hexadecimal numeral. -/
def hexStep (value : Nat) (c : Char) : Option Nat := (hexDigit? c).map (value * 16 + ·)

theorem foldlM_hexStep {n : Nat} {digits : List Char}
    (numeral : digits.map Char.toLower = Nat.toDigits 16 n) :
    digits.foldlM hexStep 0 = some n := by
  induction n using Nat.strongRecOn generalizing digits with
  | ind n ih =>
      rcases Nat.lt_or_ge n 16 with small | large
      · rw [Nat.toDigits_of_lt_base small, List.map_eq_singleton_iff] at numeral
        obtain ⟨c, rfl, digit⟩ := numeral
        simp [hexStep, hexDigit?_of_toLower small digit]
      · rw [Nat.toDigits_of_base_le (by decide) large, List.map_eq_append_iff] at numeral
        obtain ⟨front, last, rfl, high, low⟩ := numeral
        obtain ⟨c, rfl, digit⟩ := List.map_eq_singleton_iff.1 low
        have shorter : n / 16 < n := Nat.div_lt_self (by omega) (by decide)
        rw [List.foldlM_append, ih (n / 16) shorter high]
        simp only [Option.bind_eq_bind, Option.bind_some, List.foldlM_cons, List.foldlM_nil, hexStep,
          hexDigit?_of_toLower (Nat.mod_lt n (by decide)) digit, Option.map_some]
        exact congrArg some (Nat.div_add_mod' n 16)

theorem hexValue?_zeros {n : Nat} {digits : List Char} (zeros : Nat)
    (numeral : digits.map Char.toLower = Nat.toDigits 16 n) :
    hexValue? (List.replicate zeros '0' ++ digits) = some n := by
  have nonempty : digits ≠ [] := by
    rintro rfl
    exact Nat.toDigits_ne_nil numeral.symm
  have skip : (List.replicate zeros '0').foldlM hexStep 0 = some 0 := by
    induction zeros with
    | zero => rfl
    | succ zeros ih => exact ih
  have whole : (List.replicate zeros '0' ++ digits).foldlM hexStep 0 = some n := by
    rw [List.foldlM_append, skip]
    exact foldlM_hexStep numeral
  rw [hexValue?, List.isEmpty_eq_false_iff.2 (List.append_ne_nil_of_right_ne_nil _ nonempty)]
  exact whole

/-! ## References -/

/-- What a reference is to is what it stands for. -/
theorem reference?_name (reference : Reference) :
    reference? reference.name = some reference.char := by
  cases reference with
  | entity named => cases named <;> rfl
  | hexadecimal c visible zeros digits numeral =>
      exact (congrArg (·.bind charOf?) (hexValue?_zeros zeros numeral)).trans (charOf?_toNat visible)
  | decimal c visible zeros =>
      have value := decimal?_zeros zeros c.toNat
      rw [Reference.name, Reference.char]
      cases digits : List.replicate zeros '0' ++ (toString c.toNat).toList with
      | nil =>
          rw [digits] at value
          cases value
      | cons first rest =>
          rw [digits] at value
          have digit : first ≠ 'x' := by
            rintro rfl
            simp [Text.decimal?, Text.isDigit] at value
          rw [reference?, value]
          · exact charOf?_toNat visible
          · exact fun others eq => digit (List.cons.inj eq).1

/-- Characters that may stand in references. -/
def isReferenceChar (c : Char) : Bool := c.isAlphanum || c == '#'

theorem isReferenceChar_of_isDigit {c : Char} (digit : Text.isDigit c = true) :
    isReferenceChar c = true := by
  have : c.isDigit = true := by
    rw [Text.isDigit, Bool.and_eq_true, decide_eq_true_eq, decide_eq_true_eq] at digit
    rw [Char.isDigit, Bool.and_eq_true, decide_eq_true_eq, decide_eq_true_eq]
    exact digit
  simp [isReferenceChar, Char.isAlphanum, this]

theorem isReferenceChar_of_hexDigit? {c : Char} {value : Nat} (digit : hexDigit? c = some value) :
    isReferenceChar c = true := by
  have letter (low high : Char) (bounds : ∀ n, low.toNat ≤ n → n ≤ high.toNat →
      65 ≤ n ∧ n ≤ 90 ∨ 97 ≤ n ∧ n ≤ 122) (between : (low ≤ c && c ≤ high) = true) :
      isReferenceChar c = true := by
    rw [Bool.and_eq_true, decide_eq_true_eq, decide_eq_true_eq, Char.le_def, Char.le_def,
      UInt32.le_iff_toNat_le, UInt32.le_iff_toNat_le] at between
    have inside := bounds c.toNat between.1 between.2
    simp only [isReferenceChar, Char.isAlphanum, Char.isAlpha, Char.isUpper, Char.isLower,
      Bool.or_eq_true, Bool.and_eq_true, decide_eq_true_eq, ge_iff_le, UInt32.le_iff_toNat_le]
    exact .inl (.inl inside)
  rw [hexDigit?] at digit
  split at digit
  · next decimal => exact isReferenceChar_of_isDigit decimal
  · split at digit
    · next between => exact letter 'a' 'f' (by intros; simp at *; omega) between
    · split at digit
      · next between => exact letter 'A' 'F' (by intros; simp at *; omega) between
      · cases digit

theorem hexDigit?_of_foldlM {value n : Nat} {digits : List Char}
    (numeral : digits.foldlM hexStep value = some n) {c : Char} (member : c ∈ digits) :
    ∃ digit, hexDigit? c = some digit := by
  induction digits generalizing value with
  | nil => cases member
  | cons first rest ih =>
      rw [List.foldlM_cons, Option.bind_eq_bind, Option.bind_eq_some_iff] at numeral
      obtain ⟨next, step, numeral⟩ := numeral
      rcases List.mem_cons.1 member with rfl | member
      · obtain ⟨digit, found, -⟩ := Option.map_eq_some_iff.1 step
        exact ⟨digit, found⟩
      · exact ih numeral member

theorem isReferenceChar_of_mem_name {inner : Reference} {c : Char} (member : c ∈ inner.name) :
    isReferenceChar c = true := by
  cases inner with
  | entity named =>
      have all : named.name.all isReferenceChar = true := by cases named <;> decide
      exact List.all_eq_true.1 all c member
  | decimal d visible zeros =>
      rcases List.mem_cons.1 member with rfl | member
      · rfl
      · rcases List.mem_append.1 member with zero | digit
        · exact (List.eq_of_mem_replicate zero).symm ▸ rfl
        · exact isReferenceChar_of_isDigit (Text.isDigit_of_mem_toString digit)
  | hexadecimal d visible zeros digits numeral =>
      rcases List.mem_cons.1 member with rfl | member
      · rfl
      · rcases List.mem_cons.1 member with rfl | member
        · rfl
        · rcases List.mem_append.1 member with zero | digit
          · exact (List.eq_of_mem_replicate zero).symm ▸ rfl
          · obtain ⟨value, found⟩ := hexDigit?_of_foldlM (foldlM_hexStep numeral) digit
            exact isReferenceChar_of_hexDigit? found

/-- The name of a reference is collected up to the semicolon. -/
theorem unescapeFrom_name {name : List Char} (pending rest : List Char)
    (proper : ∀ c ∈ name, isReferenceChar c = true) :
    unescapeFrom (some pending) (name ++ ';' :: rest) =
      (reference? (pending.reverse ++ name)).bind fun value =>
        (unescape? rest).map (value :: ·) := by
  induction name generalizing pending with
  | nil =>
      rw [List.nil_append, List.append_nil, unescapeFrom, beq_self_eq_true, if_pos rfl]
      simp only [Option.bind_eq_bind, Option.pure_def, Option.map_eq_bind]
      rfl
  | cons c name ih =>
      obtain ⟨first, others⟩ := List.forall_mem_cons.1 proper
      have inside : (c == ';') = false := by
        rw [beq_eq_false_iff_ne]
        rintro rfl
        cases first
      have closed : (c == '&') = false := by
        rw [beq_eq_false_iff_ne]
        rintro rfl
        cases first
      rw [List.cons_append, unescapeFrom, inside, closed, if_neg Bool.false_ne_true,
        if_neg Bool.false_ne_true, ih _ others, List.reverse_cons, List.append_assoc]
      rfl

theorem unescape?_print (letter : Letter special) (escapes : '&' ∈ special) (rest : List Char) :
    unescape? (letter.print ++ rest) = (unescape? rest).map (letter.char :: ·) := by
  cases letter with
  | plain c ordinary =>
      have other : (c == '&') = false := by
        rw [beq_eq_false_iff_ne]
        rintro rfl
        exact ordinary escapes
      rw [Letter.print, List.singleton_append, unescape?, unescapeFrom, other]
      rfl
  | reference inner =>
      have proper (c : Char) (member : c ∈ inner.name) : isReferenceChar c = true :=
        isReferenceChar_of_mem_name member
      have named := unescapeFrom_name [] rest proper
      rw [List.reverse_nil, List.nil_append, reference?_name, Option.bind_some] at named
      rw [Letter.print, List.cons_append, List.cons_append, List.append_assoc,
        List.singleton_append, unescape?, unescapeFrom, beq_self_eq_true, if_pos rfl]
      exact named

/-- However a text is spelled, what is read is what is meant. -/
theorem unescape?_spelled (letters : List (Letter special)) (escapes : '&' ∈ special)
    (rest : List Char) :
    unescape? (spelled letters ++ rest) = (unescape? rest).map (meant letters ++ ·) := by
  induction letters with
  | nil => simp [spelled, meant]
  | cons letter letters ih =>
      rw [spelled, List.flatMap_cons, List.append_assoc, unescape?_print letter escapes]
      rw [spelled] at ih
      rw [ih, Option.map_map]
      rfl

/-- No special character but those of references stands in what is written. -/
theorem not_mem_spelled {c : Char} (isSpecial : c ∈ special) (other : isReferenceChar c = false)
    (opens : c ≠ '&') (closes : c ≠ ';') (letters : List (Letter special)) :
    c ∉ spelled letters := by
  intro member
  obtain ⟨letter, -, member⟩ := List.mem_flatMap.1 member
  cases letter with
  | plain d ordinary =>
      obtain rfl := List.mem_singleton.1 member
      exact ordinary isSpecial
  | reference inner =>
      rcases List.mem_cons.1 member with rfl | member
      · exact opens rfl
      · rcases List.mem_append.1 member with inside | last
        · exact Bool.false_ne_true (other.symm.trans (isReferenceChar_of_mem_name inside))
        · exact closes (List.mem_singleton.1 last)

end Markup
end DebugBridge
