import DebugBridge.Console.Command
import DebugBridge.Proofs.Text.Number
import DebugBridge.Proofs.Text.Trim

/-!
# The lines of the console's commands

The line of a command is its name and its arguments with single spaces between them.  It is read as
the command, blanks around it aside, if its arguments are words, or one text without blanks at its
ends; and a line that is read as some command begins with the name of that command.
-/

namespace DebugBridge
namespace ConsoleCommand

open Text

/-- Whether the arguments of a command can be told from its line: files and names are words, and an
expression, which is not empty, and a text to complete have no blanks at their ends. -/
def Writable : ConsoleCommand → Prop
  | .evaluate expression => expression ≠ "" ∧ Trimmed expression.toList
  | .completions text => Trimmed text.toList
  | .setBreakpoints file _ => IsWord file.toList
  | .setFunctionBreakpoints names => ∀ name ∈ names, IsWord name.toList
  | .setExceptionBreakpoints filters => ∀ filter ∈ filters, IsWord filter.toList
  | _ => True

/-- The part of a line that holds the arguments of a command. -/
def argumentText (command : ConsoleCommand) : List Char :=
  spaced (command.arguments.map String.toList)

/-! ## A line taken apart -/

theorem isWord_name (command : ConsoleCommand) : IsWord command.name.toList := by
  cases command <;> rw [name] <;> decide

/-- A line is a name and, if there are arguments, a space and the arguments. -/
theorem exists_toList_line (command : ConsoleCommand) : ∃ gap,
    command.line.toList = command.name.toList ++ (gap ++ command.argumentText) ∧
      (∀ c ∈ gap, isBlank c = true) ∧ (command.argumentText = [] ∨ gap ≠ []) := by
  rw [line, String.toList_intercalate, argumentText]
  cases command.arguments with
  | nil => exact ⟨[], by simp [spaced], by simp, .inl rfl⟩
  | cons first others =>
      refine ⟨[' '], ?_, by simp; decide, .inr (by simp)⟩
      exact spaced_cons_cons _ _ _

/-- Blanks end the name, and blanks around the arguments do not count. -/
theorem split_eq {before name gap argument after : List Char}
    (blankBefore : ∀ c ∈ before, isBlank c = true) (isWord : IsWord name)
    (blankGap : ∀ c ∈ gap, isBlank c = true) (trimmed : Trimmed argument)
    (apart : argument = [] ∨ gap ≠ []) (blankAfter : ∀ c ∈ after, isBlank c = true) :
    split (before ++ ((name ++ (gap ++ argument)) ++ after)) = (name, argument) := by
  have visible (c : Char) (member : c ∈ name) : (!isBlank c) = true := by
    rw [isWord.visible c member]
    rfl
  by_cases empty : argument = []
  · -- The gap ends the line, so it is trimmed away with the blanks after the line.
    subst empty
    have rest : ∀ c ∈ gap ++ after, isBlank c = true := fun c member =>
      (List.mem_append.1 member).elim (blankGap c) (blankAfter c)
    have line : trim (before ++ ((name ++ (gap ++ [])) ++ after)) = name := by
      rw [List.append_nil, List.append_assoc]
      exact isWord.trimmed.trim_eq_of_blanks blankBefore rest
    have first : name.takeWhile (fun c => !isBlank c) = name := by
      rw [List.takeWhile_eq_self_iff]
      exact visible
    rw [split, line, first, List.drop_length]
    rfl
  · have line : trim (before ++ ((name ++ (gap ++ argument)) ++ after)) = name ++ (gap ++ argument) := by
      refine Trimmed.trim_eq_of_blanks ⟨?_, ?_⟩ blankBefore blankAfter
      · rw [List.head?_append_of_ne_nil _ isWord.nonempty]
        exact isWord.trimmed.first
      · rw [← List.append_assoc, List.getLast?_append_of_ne_nil _ empty]
        exact trimmed.last
    have first : (name ++ (gap ++ argument)).takeWhile (fun c => !isBlank c) = name := by
      obtain ⟨c, others, rfl⟩ := List.exists_cons_of_ne_nil (apart.resolve_left empty)
      rw [List.takeWhile_append_of_pos visible, List.cons_append, List.takeWhile_cons_of_neg,
        List.append_nil]
      rw [blankGap c List.mem_cons_self]
      decide
    have argument_eq : trim (gap ++ argument) = argument := by
      rw [trim_append blankGap, trimmed.trim_eq]
    rw [split, line, first, List.drop_left, argument_eq]

/-! ## Arguments -/

theorem isWord_digits (n : Nat) : IsWord (toString n).toList where
  nonempty := toList_toString_ne_nil n
  visible _ member := isBlank_of_isDigit (isDigit_of_mem_toString member)

theorem isWord_signed (value : Int) : IsWord (toString value).toList := by
  rw [toList_toString_int]
  split
  · exact isWord_digits _
  · refine ⟨by simp, fun c member => ?_⟩
    rcases List.mem_cons.1 member with rfl | member
    · rfl
    · exact (isWord_digits _).visible c member

theorem number_toString (command meaning : String) (value : Int64) :
    number command meaning (toString value.toInt).toList = .ok value := by
  have lower : -(maxSigned + 1 : Int) ≤ value.toInt := value.le_toInt
  have upper : value.toInt ≤ maxSigned := value.toInt_le
  rw [number, boundedInt?_toString lower upper]
  exact congrArg Except.ok (Int64.ofInt_toInt value)

theorem lineNumber_toString (line : UInt32) : lineNumber (toString line.toNat).toList = .ok line := by
  have bound : line.toNat ≤ maxWord := Nat.le_of_lt_succ line.toNat_lt
  rw [lineNumber, bounded?_toString bound]
  exact congrArg Except.ok UInt32.ofNat_toNat

theorem mapM_lineNumber (lines : List UInt32) :
    (lines.map fun line => (toString line.toNat).toList).mapM lineNumber = .ok lines := by
  induction lines with
  | nil => rfl
  | cons line lines ih =>
    rw [List.map_cons, List.mapM_cons, lineNumber_toString, ih]
    rfl

theorem argumentText_of_single {command : ConsoleCommand} {text : String}
    (single : command.arguments = [text]) : command.argumentText = text.toList := by
  rw [argumentText, single, List.map_singleton, spaced, List.intercalate_singleton]

theorem textWords_argumentText {command : ConsoleCommand}
    (areWords : ∀ item ∈ command.arguments.map String.toList, IsWord item) :
    Text.words command.argumentText = command.arguments.map String.toList := by
  rw [argumentText, words_spaced areWords]

theorem words_argumentText (command : ConsoleCommand)
    (areWords : ∀ item ∈ command.arguments.map String.toList, IsWord item) :
    words command.argumentText = command.arguments := by
  rw [words, textWords_argumentText areWords, List.map_map]
  exact List.map_id'' (fun item => String.ofList_toList) command.arguments

theorem isWord_fileAndLines {file : String} (isWord : IsWord file.toList) (lines : List UInt32) :
    ∀ item ∈ (setBreakpoints file lines).arguments.map String.toList, IsWord item := by
  rw [arguments, List.map_cons, List.map_map, List.forall_mem_cons, List.forall_mem_map]
  exact ⟨isWord, fun line _ => isWord_digits line.toNat⟩

/-- The arguments are words, or a single text. -/
theorem arguments_cases {command : ConsoleCommand} (writable : command.Writable) :
    (∀ item ∈ command.arguments.map String.toList, IsWord item) ∨
      ∃ text, command.arguments = [text] ∧ Trimmed text.toList := by
  cases command with
  | scopes frame => exact .inl (List.forall_mem_singleton.2 (isWord_signed _))
  | variablesIn reference => exact .inl (List.forall_mem_singleton.2 (isWord_signed _))
  | evaluate expression => exact .inr ⟨expression, rfl, writable.2⟩
  | completions text => exact .inr ⟨text, rfl, writable⟩
  | setBreakpoints file lines => exact .inl (isWord_fileAndLines writable lines)
  | setFunctionBreakpoints names => exact .inl (List.forall_mem_map.2 writable)
  | setExceptionBreakpoints filters => exact .inl (List.forall_mem_map.2 writable)
  | _ => exact .inl (List.forall_mem_nil _)

theorem trimmed_argumentText {command : ConsoleCommand} (writable : command.Writable) :
    Trimmed command.argumentText := by
  rcases arguments_cases writable with areWords | ⟨text, single, trimmed⟩
  · exact trimmed_spaced areWords
  · rwa [argumentText_of_single single]

/-- The arguments of a command are read as they were written. -/
theorem ofParts_argumentText {command : ConsoleCommand} (writable : command.Writable) :
    ofParts command.name command.argumentText = .ok command := by
  cases command with
  | scopes frame =>
      rw [argumentText_of_single rfl]
      show (number "scopes" "frame id" _).map scopes = _
      rw [number_toString]
      rfl
  | variablesIn reference =>
      rw [argumentText_of_single rfl]
      show (number "variables" "variables reference" _).map variablesIn = _
      rw [number_toString]
      rfl
  | evaluate expression =>
      have nonempty : expression.toList.isEmpty = false := by
        rw [List.isEmpty_eq_false_iff]
        exact fun empty => writable.1 (String.toList_eq_nil_iff.1 empty)
      rw [argumentText_of_single rfl]
      show (if expression.toList.isEmpty then _ else _) = _
      rw [nonempty, if_neg Bool.false_ne_true, String.ofList_toList]
  | completions text =>
      rw [argumentText_of_single rfl]
      show Except.ok (completions (String.ofList text.toList)) = _
      rw [String.ofList_toList]
  | setBreakpoints file lines =>
      rw [name, ofParts, textWords_argumentText (isWord_fileAndLines writable lines), arguments,
        List.map_cons, List.map_map]
      show ((lines.map fun line => (toString line.toNat).toList).mapM lineNumber).map _ = _
      rw [mapM_lineNumber, String.ofList_toList]
      rfl
  | setFunctionBreakpoints names =>
      have areWords : ∀ item ∈ names.map String.toList, IsWord item := List.forall_mem_map.2 writable
      show Except.ok (setFunctionBreakpoints (words _)) = _
      rw [words_argumentText (.setFunctionBreakpoints names) areWords]
      rfl
  | setExceptionBreakpoints filters =>
      have areWords : ∀ item ∈ filters.map String.toList, IsWord item :=
        List.forall_mem_map.2 writable
      show Except.ok (setExceptionBreakpoints (words _)) = _
      rw [words_argumentText (.setExceptionBreakpoints filters) areWords]
      rfl
  | _ => rfl

/-! ## Names -/

theorem exists_of_map_ok {ε α β : Type} {f : α → β} {result : Except ε α} {value : β}
    (mapped : result.map f = .ok value) : ∃ inner, result = .ok inner ∧ f inner = value := by
  cases result with
  | error error => cases mapped
  | ok inner =>
      cases mapped
      exact ⟨inner, rfl, rfl⟩

/-- A command is found under its own name only. -/
theorem name_of_ofParts {name : String} {rest : List Char} {command : ConsoleCommand}
    (read : ofParts name rest = .ok command) : command.name = name := by
  unfold ofParts at read
  split at read
  case h_8 | h_9 =>
    obtain ⟨value, -, rfl⟩ := exists_of_map_ok read
    rfl
  case h_10 =>
    split at read <;> cases read
    rfl
  case h_15 =>
    split at read
    · cases read
    · obtain ⟨lines, -, rfl⟩ := exists_of_map_ok read
      rfl
  all_goals cases read <;> rfl

/-- The first word of a line that is read is the name of what it is read as. -/
theorem head?_words_of_parse {line : String} {command : ConsoleCommand}
    (read : parse line = .ok command) :
    (Text.words line.toList).head? = some command.name.toList := by
  rw [parse] at read
  have name : command.name = String.ofList (split line.toList).1 := name_of_ofParts read
  have first : ((trim line.toList).takeWhile fun c => !isBlank c) = command.name.toList := by
    rw [name, String.toList_ofList]
    rfl
  have started := @head?_words line.toList
  rw [first] at started
  exact started command.isWord_name.nonempty

/-- A command can be read from its line, whatever blanks stand around the line, if its arguments are
fit for a line.  The first word of a line that is read is the name of the command that it is read
as. -/
theorem parse_line :
    (∀ command : ConsoleCommand, command.Writable →
      ∀ before after : String, isBlankText before = true → isBlankText after = true →
        parse (before ++ command.line ++ after) = .ok command) ∧
    ∀ (line : String) (command : ConsoleCommand), parse line = .ok command →
      (Text.words line.toList).head? = some command.name.toList := by
  refine ⟨fun command writable before after blankBefore blankAfter => ?_, ?_⟩
  · obtain ⟨gap, whole, blankGap, apart⟩ := command.exists_toList_line
    rw [isBlankText, allBlank, List.all_eq_true] at blankBefore blankAfter
    rw [parse, String.toList_append, String.toList_append, whole, List.append_assoc,
      split_eq blankBefore command.isWord_name blankGap (trimmed_argumentText writable) apart
        blankAfter]
    dsimp only
    rw [String.ofList_toList]
    exact ofParts_argumentText writable
  · exact fun line command => head?_words_of_parse

/-- The greatest line number, the least reference, and an expression with blanks in it. -/
theorem parse_line_extremes :
    parse "\t setBreakpoints C:\\a.ahk 0 4294967295\u3000" =
        .ok (.setBreakpoints "C:\\a.ahk" [0, 4294967295]) ∧
      (Text.words "\t setBreakpoints C:\\a.ahk 0 4294967295\u3000".toList).head? =
        some "setBreakpoints".toList ∧
      parse "variables -9223372036854775808\n" = .ok (.variablesIn (-9223372036854775808)) ∧
      parse "evaluate a  . b" = .ok (.evaluate "a  . b") := by
  have isWord : IsWord "C:\\a.ahk".toList := by decide
  have lines := parse_line.1 (.setBreakpoints "C:\\a.ahk" [0, 4294967295]) isWord "\t " "\u3000"
    (by decide) (by decide)
  have reference := parse_line.1 (.variablesIn (-9223372036854775808)) trivial "" "\n" (by decide)
    (by decide)
  have expression := parse_line.1 (.evaluate "a  . b") ⟨by decide, by decide⟩ "" "" (by decide)
    (by decide)
  exact ⟨lines, parse_line.2 _ _ lines, reference, expression⟩

end ConsoleCommand
end DebugBridge
