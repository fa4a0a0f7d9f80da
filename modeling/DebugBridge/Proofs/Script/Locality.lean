import DebugBridge.Proofs.Script.Returns

/-!
# Masking line by line

Without block comments each line is masked by itself, whatever quotes and backticks are on the lines
around it, with one exception: where a string reaches the end of its line and a backtick escapes the
line break, the string goes on on the next line.
-/

namespace DebugBridge
namespace Mask

open Text

/-! ## Lines one after another -/

/-- The mode in which the line after a line begins. -/
def modeAfterLine (version : Version) (mode : Mode) (line : List Char) : Mode :=
  match modeAfter version mode none none line with
  | .skipping quote => .quoted quote
  | _ => .code true

/-- The masked forms of lines, the first of which begins in a mode. -/
def maskLines (version : Version) (mode : Mode) : List (List Char) → List (List Char)
  | [] => []
  | line :: rest =>
    maskFrom version mode none line :: maskLines version (modeAfterLine version mode line) rest

/-- Whether a line ends within a string, in a backtick that escapes the line break. -/
def continues (version : Version) (line : List Char) : Bool :=
  match modeAfter version (.code true) none none line with
  | .skipping _ => true
  | _ => false

variable {version : Version} {mode other : Mode} {before next : Option Char} {text : List Char}
  {c : Char}

/-- Only version 2 has lines that go on, and they end in a backtick. -/
theorem ends_of_continues (goesOn : continues version text = true) :
    version = .v2 ∧ text.getLast? = some '\x60' := by
  obtain ⟨quote, mode_eq⟩ :
      ∃ quote, modeAfter version (.code true) none none text = .skipping quote := by
    rw [continues] at goesOn
    split at goesOn
    · next quote mode_eq => exact ⟨quote, mode_eq⟩
    · cases goesOn
  rcases List.eq_nil_or_concat' text with rfl | ⟨text, c, rfl⟩
  · cases mode_eq
  rw [modeAfter_append] at mode_eq
  rw [List.getLast?_concat, Option.some_inj]
  generalize modeAfter version (.code true) none (([c] : List Char).head?.or none) text = mode at mode_eq
  generalize text.getLast?.or none = before at mode_eq
  change (step version mode before c none).2 = .skipping quote at mode_eq
  cases mode with
  | code fresh =>
      rw [step, codeStep] at mode_eq
      split_ifs at mode_eq
  | escaped | opening | closing | skipping => cases mode_eq
  | remark | comment =>
      rw [step] at mode_eq
      split_ifs at mode_eq
  | quoted other =>
      rw [step, quotedStep] at mode_eq
      split_ifs at mode_eq with newline escape closes doubled
      · rw [Bool.and_eq_true, beq_iff_eq, beq_iff_eq] at escape
        exact escape.symm
      · simp at doubled

/-! ## Texts without block comments -/

/-- Whether a mode is within a block comment. -/
def Mode.inBlock : Mode → Bool
  | .opening | .comment | .closing => true
  | _ => false

/-- A mode regardless of whether a block comment could open. -/
def Mode.settled : Mode → Mode
  | .code _ => .code true
  | mode => mode

theorem opens_eq_false (apart : ¬ (c = '/' ∧ next = some '*')) (fresh : Bool) :
    (c == '/' && fresh && next == some '*') = false := by
  rw [← Bool.not_eq_true, Bool.and_eq_true, Bool.and_eq_true, beq_iff_eq, beq_iff_eq]
  exact fun opens => apart ⟨opens.1.1, opens.2⟩

theorem inBlock_step (outside : mode.inBlock = false) (apart : ¬ (c = '/' ∧ next = some '*')) :
    (step version mode before c next).2.inBlock = false := by
  cases mode with
  | opening | comment | closing => cases outside
  | escaped | skipping => rfl
  | code fresh =>
      rw [step, codeStep, opens_eq_false apart, if_neg Bool.false_ne_true]
      split_ifs <;> rfl
  | remark =>
      rw [step]
      split_ifs <;> rfl
  | quoted quote =>
      rw [step, quotedStep]
      split_ifs <;> rfl

theorem step_settled (version : Version) (mode : Mode) (before : Option Char)
    (apart : ¬ (c = '/' ∧ next = some '*')) :
    (step version mode.settled before c next).1 = (step version mode before c next).1 ∧
      (step version mode.settled before c next).2.settled =
        (step version mode before c next).2.settled := by
  cases mode with
  | escaped | remark | opening | comment | closing | quoted | skipping => exact ⟨rfl, rfl⟩
  | code fresh =>
      rw [Mode.settled, step, step, codeStep, codeStep, opens_eq_false apart, opens_eq_false apart]
      split_ifs <;> exact ⟨rfl, rfl⟩

theorem apart_of_plain (plain : ¬ ['/', '*'] <:+: c :: text) (ends : next ≠ some '*') :
    ¬ (c = '/' ∧ text.head?.or next = some '*') := by
  rintro ⟨rfl, opens⟩
  cases text with
  | nil => exact ends opens
  | cons d text =>
      obtain rfl := Option.some.inj opens
      exact plain (List.prefix_append ['/', '*'] text).isInfix

theorem plain_of_cons (plain : ¬ ['/', '*'] <:+: c :: text) : ¬ ['/', '*'] <:+: text :=
  fun inside => plain (inside.trans (List.suffix_cons _ _).isInfix)

theorem inBlock_modeAfter (outside : mode.inBlock = false) (plain : ¬ ['/', '*'] <:+: text)
    (ends : next ≠ some '*') : (modeAfter version mode before next text).inBlock = false := by
  induction text generalizing mode before with
  | nil => exact outside
  | cons c text ih =>
      exact ih (inBlock_step outside (apart_of_plain plain ends)) (plain_of_cons plain)

/-- Whether a block comment could open makes no difference. -/
theorem maskFrom_congr (plain : ¬ ['/', '*'] <:+: text) (same : mode.settled = other.settled) :
    maskFrom version mode before text = maskFrom version other before text := by
  induction text generalizing mode other before with
  | nil => rfl
  | cons c text ih =>
      have apart : ¬ (c = '/' ∧ text.head? = some '*') := by
        have apart := apart_of_plain plain (show (none : Option Char) ≠ some '*' by simp)
        rwa [Option.or_none] at apart
      have stepped := step_settled version mode before apart
      have stepped' := step_settled version other before apart
      rw [same] at stepped
      rw [maskFrom, maskFrom]
      dsimp only
      rw [← stepped.1, stepped'.1,
        ih (plain_of_cons plain) (stepped.2.symm.trans stepped'.2)]

/-! ## The end of a line -/

theorem step_ends (sound : mode.Sound) :
    step version mode before c (some '\n') = step version mode before c none := by
  cases mode with
  | code | escaped | remark | opening | comment | closing | skipping => rfl
  | quoted quote =>
      have apart : (some '\n' == some quote) = false := by
        rw [beq_eq_false_iff_ne]
        exact fun same => sound (Option.some.inj same).symm
      rw [step, step, quotedStep, quotedStep, apart]
      rfl

/-- A line is masked alike whether a line break or nothing comes after it. -/
theorem mask_ends (version : Version) (before : Option Char) (text : List Char)
    (sound : mode.Sound) :
    maskPart version mode before (some '\n') text = maskFrom version mode before text ∧
      modeAfter version mode before (some '\n') text = modeAfter version mode before none text := by
  induction text generalizing mode before with
  | nil => exact ⟨rfl, rfl⟩
  | cons c text ih =>
      have same : step version mode before c (text.head?.or (some '\n')) =
          step version mode before c text.head? := by
        cases text with
        | nil => exact step_ends sound
        | cons => rfl
      obtain ⟨masked, mode_eq⟩ := ih (some c) (sound.step before c text.head?)
      rw [maskPart, maskFrom, modeAfter, modeAfter, same, masked, mode_eq, Option.or_none]
      exact ⟨rfl, rfl⟩

/-- What a line break leaves of a mode outside of block comments. -/
theorem modeAfterLine_spec (version : Version) (sound : mode.Sound)
    (outside : (modeAfter version mode none none text).inBlock = false) :
    (step version (modeAfter version mode none none text) none '\n' none).2.settled =
        (modeAfterLine version mode text).settled ∧
      (modeAfterLine version mode text).Sound ∧
      (modeAfterLine version mode text).inBlock = false := by
  have sound : (modeAfter version mode none none text).Sound := sound.modeAfter
  rw [modeAfterLine]
  generalize modeAfter version mode none none text = last at sound outside ⊢
  cases last with
  | opening | comment | closing => cases outside
  | code | escaped | remark | quoted => exact ⟨rfl, trivial, rfl⟩
  | skipping quote => exact ⟨rfl, sound, rfl⟩

/-- Without block comments lines are masked one after another. -/
theorem maskFrom_intercalate (version : Version) (mode : Mode) (lines : List (List Char))
    (sound : mode.Sound) (outside : mode.inBlock = false) (plain : ¬ ['/', '*'] <:+: ['\n'].intercalate lines) :
    maskFrom version mode none (['\n'].intercalate lines) =
      ['\n'].intercalate (maskLines version mode lines) := by
  induction lines generalizing mode with
  | nil => rfl
  | cons line lines ih =>
      cases lines with
      | nil => rw [maskLines, maskLines, List.intercalate_singleton, List.intercalate_singleton]
      | cons second lines =>
          rw [List.intercalate_cons_cons] at plain ⊢
          have inLine : ¬ ['/', '*'] <:+: line :=
            fun inside => plain (inside.trans ⟨[], _, by rw [List.nil_append, ← List.append_assoc]⟩)
          have later : ¬ ['/', '*'] <:+: ['\n'].intercalate (second :: lines) :=
            fun inside => plain (inside.trans (List.suffix_append _ _).isInfix)
          obtain ⟨masked, mode_eq⟩ := mask_ends version none line sound
          obtain ⟨broken, sound', outside'⟩ := modeAfterLine_spec version sound
            (inBlock_modeAfter outside inLine (by simp))
          have lines_eq : maskLines version mode (line :: second :: lines) =
              maskFrom version mode none line ::
                maskFrom version (modeAfterLine version mode line) none second ::
                  maskLines version (modeAfterLine version (modeAfterLine version mode line) second)
                    lines := rfl
          rw [List.append_assoc, List.singleton_append, maskFrom_append, List.head?_cons, masked, mode_eq,
            maskFrom_break, maskFrom_newline, maskFrom_congr later broken, ih _ sound' outside' later,
            lines_eq, List.intercalate_cons_cons, List.append_assoc]
          rfl

/-- Where no string goes on, every line is masked like a text of its own. -/
theorem maskLines_eq_map {lines : List (List Char)}
    (ends : ∀ line ∈ lines.dropLast, continues version line = false) :
    maskLines version (.code true) lines = lines.map (maskSource version) := by
  induction lines with
  | nil => rfl
  | cons line lines ih =>
      cases lines with
      | nil => rfl
      | cons second lines =>
          rw [List.dropLast_cons_cons, List.forall_mem_cons] at ends
          have fresh : modeAfterLine version (.code true) line = .code true := by
            have last := ends.1
            rw [continues] at last
            rw [modeAfterLine]
            split at last
            · cases last
            · rfl
          rw [maskLines, fresh, ih ends.2]
          rfl

/-- Without block comments masking goes line by line: a line is masked by itself, unless a string goes
on from the line before it. -/
theorem maskSource_lines (version : Version) (text : List Char) (plain : ¬ ['/', '*'] <:+: text) :
    maskSource version text =
        ['\n'].intercalate (maskLines version (.code true) (text.splitOn '\n')) ∧
      ((version = .v2 → ∀ line ∈ (text.splitOn '\n').dropLast, continues version line = false) →
        maskSource version text =
          ['\n'].intercalate ((text.splitOn '\n').map (maskSource version))) := by
  have law : maskSource version text =
      ['\n'].intercalate (maskLines version (.code true) (text.splitOn '\n')) := by
    have split := maskFrom_intercalate version (.code true) (text.splitOn '\n') trivial rfl
    rw [List.intercalate_splitOn] at split
    exact split plain
  refine ⟨law, fun ends => ?_⟩
  rw [law, maskLines_eq_map]
  intro line member
  rw [← Bool.not_eq_true]
  intro goesOn
  rw [ends (ends_of_continues goesOn).1 line member] at goesOn
  cases goesOn

/-- A backtick before a line break in code, a string that is left open, and a quote in a comment. -/
theorem maskSource_lines_stray :
    ¬ ['/', '*'] <:+: "a\x60\nb := \x22c\n; \x27\nd".toList ∧
      (Version.v2 = .v2 → ∀ line ∈ ("a\x60\nb := \x22c\n; \x27\nd".toList.splitOn '\n').dropLast,
        continues .v2 line = false) ∧
      maskSource .v2 "a\x60\nb := \x22c\n; \x27\nd".toList = ['\n'].intercalate
        (("a\x60\nb := \x22c\n; \x27\nd".toList.splitOn '\n').map (maskSource .v2)) :=
  ⟨by decide, by decide, (maskSource_lines .v2 _ (by decide)).2 (by decide)⟩

/-- A string that goes on hides what is on the next line. -/
theorem maskSource_continued :
    ¬ ∀ (version : Version) (text : List Char), ¬ ['/', '*'] <:+: text →
      maskSource version text =
        ['\n'].intercalate ((text.splitOn '\n').map (maskSource version)) :=
  fun always => absurd (always .v2 "s := \x22a\x60\nF() \x7b\n".toList (by decide)) (by decide)

end Mask
end DebugBridge
