import DebugBridge.Debugger.HitCondition
import DebugBridge.Proofs.Text.Number
import DebugBridge.Proofs.Text.Trim

/-!
# What conditions on the number of hits mean

A condition is written as a sign or none, some blanks, and a numeral with a plus sign or none.  Just
such texts are read, as long as the number to compare with is an unsigned 32-bit number and not zero,
and the condition that is read holds at just those hits that the text speaks of.
-/

namespace DebugBridge
namespace HitCondition

/-- What may stand before the number. -/
inductive Sign where
  /-- Nothing. -/
  | bare
  /-- At least that many hits. -/
  | atLeast
  /-- More hits than that. -/
  | above
  /-- That many hits. -/
  | same
  /-- That many hits, written shorter. -/
  | equal
  /-- A multiple of that many hits. -/
  | multiple

namespace Sign

/-- The sign as it is written. -/
def text : Sign → List Char
  | .bare => []
  | .atLeast => ['>', '=']
  | .above => ['>']
  | .same => ['=', '=']
  | .equal => ['=']
  | .multiple => ['%']

/-- What a sign with a number behind it says about a number of hits. -/
def Relates (hits number : Nat) : Sign → Prop
  | .bare | .atLeast => number ≤ hits
  | .above => number < hits
  | .same | .equal => hits = number
  | .multiple => number ∣ hits

/-- The operator that stands for the sign. -/
def operator : Sign → HitOperator
  | .bare | .atLeast | .above => .atLeast
  | .same | .equal => .equal
  | .multiple => .multiple

/-- What is added to the number, since more than a number is at least the next one. -/
def excess : Sign → Nat
  | .above => 1
  | _ => 0

/-- A character that no sign contains. -/
def Foreign (c : Char) : Prop := c ≠ '>' ∧ c ≠ '=' ∧ c ≠ '%'

end Sign

/-- A condition as it may be written. -/
structure Written where
  /-- The sign. -/
  sign : Sign
  /-- What stands behind it. -/
  gap : List Char
  /-- These are blanks. -/
  blank : ∀ c ∈ gap, Text.isBlank c = true
  /-- Whether the number has a plus sign. -/
  plus : Bool
  /-- The number. -/
  numeral : Text.Numeral

namespace Written

/-- The number with its sign. -/
def signed (written : Written) : List Char := written.numeral.print written.plus

/-- The whole text. -/
def text (written : Written) : List Char :=
  written.sign.text ++ (written.gap ++ written.signed)

/-- The least number of hits that is more than the number, after a sign that says so, else the
number. -/
def value (written : Written) : Nat := written.numeral.value + written.sign.excess

/-- The value is an unsigned 32-bit number, and not zero. -/
def InRange (written : Written) : Prop := 1 ≤ written.value ∧ written.value ≤ 4294967295

/-- The condition that is meant. -/
def condition (written : Written) : HitCondition := ⟨written.value, written.sign.operator⟩

/-- The condition says what the text does. -/
theorem holds_iff (written : Written) (hits : Nat) :
    written.condition.holds hits = true ↔ written.sign.Relates hits written.numeral.value := by
  obtain ⟨sign, gap, blank, plus, numeral⟩ := written
  cases sign with
  | bare | atLeast | above => exact decide_eq_true_iff
  | same | equal => exact beq_iff_eq
  | multiple => exact beq_iff_eq.trans (Nat.dvd_iff_mod_eq_zero ..).symm

end Written

/-! ## Signs -/

theorem foreign_of_isBlank {c : Char} (blank : Text.isBlank c = true) : Sign.Foreign c := by
  refine ⟨?_, ?_, ?_⟩ <;> rintro rfl <;> cases blank

theorem foreign_of_isDigit {c : Char} (digit : Text.isDigit c = true) : Sign.Foreign c := by
  refine ⟨?_, ?_, ?_⟩ <;> rintro rfl <;> cases digit

/-- A sign is taken for what it is if no other one begins behind it. -/
theorem splitOperator_text (sign : Sign) {rest : List Char}
    (foreign : ∀ c ∈ rest.head?, Sign.Foreign c) :
    splitOperator (sign.text ++ rest) = (sign.operator, sign.excess, rest) := by
  cases rest with
  | nil => cases sign <;> rfl
  | cons c rest =>
      obtain ⟨above, equal, multiple⟩ := foreign c rfl
      cases sign <;> simp [Sign.text, splitOperator, Sign.operator, Sign.excess, above, equal, multiple]

/-- Whatever the text, it is cut behind a sign or nothing. -/
theorem exists_splitOperator (text : List Char) :
    ∃ (sign : Sign) (rest : List Char), text = sign.text ++ rest ∧
      splitOperator text = (sign.operator, sign.excess, rest) := by
  unfold splitOperator
  split
  · next rest => exact ⟨.atLeast, rest, rfl, rfl⟩
  · next rest _ => exact ⟨.above, rest, rfl, rfl⟩
  · next rest => exact ⟨.same, rest, rfl, rfl⟩
  · next rest _ => exact ⟨.equal, rest, rfl, rfl⟩
  · next rest => exact ⟨.multiple, rest, rfl, rfl⟩
  · exact ⟨.bare, text, rfl, rfl⟩

namespace Written

variable (written : Written)

theorem trimmed_signed : Text.Trimmed written.signed where
  first := by
    intro c first
    obtain ⟨digit, digits, whole⟩ := List.exists_cons_of_ne_nil written.numeral.nonempty
    rw [signed, Text.Numeral.print, whole] at first
    split at first
    · cases first
      rfl
    · cases first
      exact Text.isBlank_of_isDigit (written.numeral.numeric _ (whole ▸ List.mem_cons_self))
  last := by
    intro c last
    rw [signed, Text.Numeral.print, List.getLast?_append_of_ne_nil _ written.numeral.nonempty] at last
    exact Text.isBlank_of_isDigit (written.numeral.numeric c (List.mem_of_getLast? last))

theorem trim_gap : Text.trim (written.gap ++ written.signed) = written.signed := by
  rw [Text.trim_append written.blank, written.trimmed_signed.trim_eq]

theorem foreign_gap : ∀ c ∈ (written.gap ++ written.signed).head?, Sign.Foreign c := by
  intro c first
  rcases List.mem_append.1 (List.mem_of_head? first) with inGap | inSigned
  · exact foreign_of_isBlank (written.blank c inGap)
  · rcases List.mem_append.1 inSigned with plus | digit
    · split at plus
      · obtain rfl := List.mem_singleton.1 plus
        exact ⟨by decide, by decide, by decide⟩
      · cases plus
    · exact foreign_of_isDigit (written.numeral.numeric c digit)

end Written

/-! ## Reading -/

/-- With a sign known, the rest of the text must be a number that leads to a value in range. -/
theorem ofTrimmed?_of_split {text rest : List Char} {operator : HitOperator} {excess : Nat}
    {condition : HitCondition} (split : splitOperator text = (operator, excess, rest)) :
    ofTrimmed? text = some condition ↔
      ∃ number, Text.bounded? Text.maxWord (Text.trim rest) = some number ∧
        (1 ≤ number + excess ∧ number + excess ≤ 4294967295) ∧
          condition = ⟨number + excess, operator⟩ := by
  have limit : Text.maxWord = 4294967295 := rfl
  rw [ofTrimmed?, split]
  simp only [Option.bind_eq_bind, Option.bind_eq_some_iff]
  refine exists_congr fun number => and_congr_right fun _ => ?_
  split
  · next out =>
    rw [Bool.or_eq_true, decide_eq_true_eq, decide_eq_true_eq, limit] at out
    exact iff_of_false nofun (by omega)
  · next within =>
    rw [Bool.or_eq_true, decide_eq_true_eq, decide_eq_true_eq, limit] at within
    rw [Option.some_inj, eq_comm, iff_and_self]
    omega

/-- A condition that is written is read as what is meant, if that is in range. -/
theorem ofTrimmed?_text (written : Written) {condition : HitCondition} :
    ofTrimmed? written.text = some condition ↔
      written.InRange ∧ condition = written.condition := by
  rw [Written.text, ofTrimmed?_of_split (splitOperator_text written.sign written.foreign_gap),
    written.trim_gap, Written.signed]
  simp only [Text.bounded?_print]
  constructor
  · rintro ⟨_, ⟨rfl, -⟩, range, rfl⟩
    exact ⟨range, rfl⟩
  · rintro ⟨range, rfl⟩
    have most : written.numeral.value + written.sign.excess ≤ Text.maxWord := range.2
    exact ⟨_, ⟨rfl, (Nat.le_add_right _ _).trans most⟩, range, rfl⟩

/-- Nothing but what is written so is read from a text without blanks around it. -/
theorem exists_of_ofTrimmed? {text : List Char} (trimmed : Text.Trimmed text)
    {condition : HitCondition} (read : ofTrimmed? text = some condition) :
    ∃ written : Written, text = written.text := by
  obtain ⟨sign, rest, whole, split⟩ := exists_splitOperator text
  obtain ⟨number, numeral, -⟩ := (ofTrimmed?_of_split split).1 read
  obtain ⟨plus, digits, signed⟩ := Text.exists_of_bounded? numeral
  obtain ⟨gap, after, parts, blank, blankAfter⟩ := Text.exists_trim rest
  have ends : after = [] := by
    rw [whole, parts, ← List.append_assoc, ← List.append_assoc] at trimmed
    exact trimmed.eq_nil blankAfter
  refine ⟨⟨sign, gap, blank, plus, digits⟩, ?_⟩
  rw [whole, parts, ends, List.append_nil, signed]
  rfl

theorem ofTrimmed?_eq_some_iff {text : List Char} (trimmed : Text.Trimmed text)
    {condition : HitCondition} :
    ofTrimmed? text = some condition ↔
      ∃ written : Written, text = written.text ∧ written.InRange ∧ condition = written.condition := by
  constructor
  · intro read
    obtain ⟨written, rfl⟩ := exists_of_ofTrimmed? trimmed read
    exact ⟨written, rfl, (ofTrimmed?_text written).1 read⟩
  · rintro ⟨written, rfl, meant⟩
    exact (ofTrimmed?_text written).2 meant

/-- What comes of reading a text. -/
theorem parse_cases (text : String) :
    Text.allBlank text.toList = true ∧ ofTrimmed? (Text.trim text.toList) = none ∧
        parse text = .ok none ∨
      Text.allBlank text.toList = false ∧
        ((∃ condition, ofTrimmed? (Text.trim text.toList) = some condition ∧
            parse text = .ok (some condition)) ∨
          ofTrimmed? (Text.trim text.toList) = none ∧
            parse text = .error (.hitCondition (String.ofList (Text.trim text.toList)))) := by
  have blank : Text.trim text.toList = [] ↔ Text.allBlank text.toList = true :=
    Text.trim_eq_nil_iff
  rw [parse]
  generalize Text.trim text.toList = trimmed at blank
  cases trimmed with
  | nil => exact .inl ⟨blank.1 rfl, rfl, rfl⟩
  | cons c rest =>
      refine .inr ⟨Bool.eq_false_iff.2 fun all => List.cons_ne_nil _ _ (blank.2 all), ?_⟩
      cases read : ofTrimmed? (c :: rest) with
      | some condition => exact .inl ⟨condition, rfl, rfl⟩
      | none => exact .inr ⟨rfl, rfl⟩

theorem parse_eq_none_iff {text : String} :
    parse text = .ok none ↔ Text.allBlank text.toList = true := by
  rcases parse_cases text with ⟨blank, -, read⟩ | ⟨visible, ⟨_, -, read⟩ | ⟨-, read⟩⟩
  · simp [blank, read]
  · simp [visible, read]
  · simp [visible, read]

/-- A condition is read from a text that has it written, blanks around it aside. -/
theorem parse_eq_some_iff {text : String} {condition : HitCondition} :
    parse text = .ok (some condition) ↔ ∃ written : Written,
      Text.trim text.toList = written.text ∧ written.InRange ∧ condition = written.condition := by
  rw [← ofTrimmed?_eq_some_iff (Text.trimmed_trim _)]
  rcases parse_cases text with ⟨-, none, read⟩ | ⟨-, ⟨_, some, read⟩ | ⟨none, read⟩⟩
  · simp [none, read]
  · simp [some, read]
  · simp [none, read]

/-- Nothing is read from a text exactly if no condition in range is written in it. -/
theorem ofTrimmed?_eq_none_iff {text : List Char} (trimmed : Text.Trimmed text) :
    ofTrimmed? text = none ↔ ¬ ∃ written : Written, text = written.text ∧ written.InRange := by
  rw [Option.eq_none_iff_forall_ne_some]
  constructor
  · rintro unread ⟨written, rfl, range⟩
    exact unread _ ((ofTrimmed?_text written).2 ⟨range, rfl⟩)
  · intro unwritten condition read
    obtain ⟨written, whole, range, -⟩ := (ofTrimmed?_eq_some_iff trimmed).1 read
    exact unwritten ⟨written, whole, range⟩

/-- A text that is neither blank nor a condition is refused. -/
theorem parse_eq_error_iff {text : String} {error : DebugError} :
    parse text = .error error ↔ Text.allBlank text.toList = false ∧
      (¬ ∃ written : Written, Text.trim text.toList = written.text ∧ written.InRange) ∧
        error = .hitCondition (String.ofList (Text.trim text.toList)) := by
  rw [← ofTrimmed?_eq_none_iff (Text.trimmed_trim _)]
  rcases parse_cases text with ⟨blank, -, read⟩ | ⟨visible, ⟨_, some, read⟩ | ⟨none, read⟩⟩
  · simp [blank, read]
  · simp [some, read]
  · simp [visible, none, read, eq_comm]

/-! ## Writing -/

/-- The sign in the usual form of a condition. -/
def usualSign : HitOperator → Sign
  | .atLeast => .atLeast
  | .equal => .same
  | .multiple => .multiple

/-- The usual form of a condition. -/
def usual (condition : HitCondition) : Written where
  sign := usualSign condition.operator
  gap := [' ']
  blank := List.all_eq_true.1 rfl
  plus := false
  numeral :=
    { digits := (toString condition.value).toList
      nonempty := Text.toList_toString_ne_nil condition.value
      numeric := fun _ => Text.isDigit_of_mem_toString }

theorem usual_value (condition : HitCondition) : (usual condition).value = condition.value := by
  have numeral : (usual condition).numeral.value = condition.value := Text.digitsValue_toString _
  have excess : (usual condition).sign.excess = 0 := by
    obtain ⟨value, operator⟩ := condition
    cases operator <;> rfl
  rw [Written.value, numeral, excess, Nat.add_zero]

theorem usual_condition (condition : HitCondition) : (usual condition).condition = condition := by
  rw [Written.condition, usual_value]
  obtain ⟨value, operator⟩ := condition
  cases operator <;> rfl

theorem symbol_eq (operator : HitOperator) : operator.symbol.toList = (usualSign operator).text := by
  cases operator <;> rfl

theorem toList_render (condition : HitCondition) :
    (render condition).toList = (usual condition).text := by
  rw [render, String.toList_append, String.toList_append, symbol_eq, List.append_assoc]
  simp [Written.text, Written.signed, Text.Numeral.print, usual]

/-- The usual form has no blanks around it. -/
theorem trimmed_usual (condition : HitCondition) : Text.Trimmed (usual condition).text where
  first := by
    intro c first
    obtain ⟨value, operator⟩ := condition
    cases operator <;> cases first <;> rfl
  last := by
    intro c last
    have some : (usual condition).signed ≠ [] := (usual condition).numeral.nonempty
    rw [Written.text, ← List.append_assoc, List.getLast?_append_of_ne_nil _ some] at last
    exact (usual condition).trimmed_signed.last c last

/-- The usual form is read as the condition, if its value can be one. -/
theorem parse_render_iff (condition : HitCondition) :
    parse (render condition) = .ok (some condition) ↔
      1 ≤ condition.value ∧ condition.value ≤ 4294967295 := by
  rw [parse_eq_some_iff, toList_render, (trimmed_usual condition).trim_eq]
  constructor
  · rintro ⟨written, -, range, rfl⟩
    exact range
  · intro range
    refine ⟨usual condition, rfl, ?_, (usual_condition condition).symm⟩
    rwa [Written.InRange, usual_value]

/-- A text has no condition if and only if it is blank.  It has one if and only if, blanks around it
aside, it is a sign or none, a gap and a number that leads to an unsigned 32-bit number other than
zero; and then the condition holds of those hits of which the text says so.  Every other text is
refused, and told in the refusal.  The conditions that are read are those with such a number, and
they are read from their usual form. -/
theorem parse_means :
    (∀ text : String,
      (parse text = .ok none ↔ Text.allBlank text.toList = true) ∧
      ((∃ condition, parse text = .ok (some condition)) ↔
        ∃ written : Written, Text.trim text.toList = written.text ∧ written.InRange) ∧
      (∀ (condition : HitCondition) (written : Written), parse text = .ok (some condition) →
        Text.trim text.toList = written.text →
          ∀ hits, condition.holds hits = true ↔ written.sign.Relates hits written.numeral.value) ∧
      ∀ error, parse text = .error error ↔ Text.allBlank text.toList = false ∧
        (¬ ∃ written : Written, Text.trim text.toList = written.text ∧ written.InRange) ∧
          error = .hitCondition (String.ofList (Text.trim text.toList))) ∧
    ∀ condition : HitCondition,
      ((∃ text, parse text = .ok (some condition)) ↔
        1 ≤ condition.value ∧ condition.value ≤ 4294967295) ∧
      (parse (render condition) = .ok (some condition) ↔
        1 ≤ condition.value ∧ condition.value ≤ 4294967295) := by
  refine ⟨fun text => ⟨parse_eq_none_iff, ?_, ?_, fun error => parse_eq_error_iff⟩,
    fun condition => ⟨?_, parse_render_iff condition⟩⟩
  · simp only [parse_eq_some_iff]
    constructor
    · rintro ⟨condition, written, whole, range, -⟩
      exact ⟨written, whole, range⟩
    · rintro ⟨written, whole, range⟩
      exact ⟨written.condition, written, whole, range, rfl⟩
  · intro condition written read whole hits
    obtain ⟨other, same, meant⟩ := parse_eq_some_iff.1 read
    have again := (ofTrimmed?_text other).2 meant
    rw [← same, whole] at again
    obtain ⟨-, rfl⟩ := (ofTrimmed?_text written).1 again
    exact written.holds_iff hits
  · constructor
    · rintro ⟨text, read⟩
      obtain ⟨written, -, range, rfl⟩ := parse_eq_some_iff.1 read
      exact range
    · intro range
      exact ⟨render condition, (parse_render_iff condition).2 range⟩

/-- The greatest number that hits can exceed, with all that may be written around it. -/
def greatest : Written where
  sign := .above
  gap := [' ', '\t']
  blank := List.all_eq_true.1 rfl
  plus := true
  numeral :=
    { digits := "04294967294".toList
      nonempty := by decide
      numeric := List.all_eq_true.1 (by decide) }

/-- More hits than the greatest number can be asked for. -/
theorem parse_means_greatest :
    parse " > \t+04294967294\n" = .ok (some ⟨4294967295, .atLeast⟩) ∧
      Text.trim " > \t+04294967294\n".toList = greatest.text ∧
      ∀ hits, (HitCondition.mk 4294967295 .atLeast).holds hits = true ↔
        greatest.sign.Relates hits greatest.numeral.value := by
  have read : parse " > \t+04294967294\n" = .ok (some ⟨4294967295, .atLeast⟩) := by decide +kernel
  have whole : Text.trim " > \t+04294967294\n".toList = greatest.text := by decide +kernel
  exact ⟨read, whole, (parse_means.1 _).2.2.1 _ greatest read whole⟩

end HitCondition
end DebugBridge
