import DebugBridge.Protocol.Command
import DebugBridge.Proofs.Text.Base64
import DebugBridge.Proofs.Text.Number
import Mathlib

/-!
# Command lines are read back

A command line has blanks between its tokens, and a value that would be torn apart by them is
quoted.  The tokens of a line that a command is written as are its name, its flags and its values,
whatever the values are, and from these the command is put together again.
-/

namespace DebugBridge
namespace Command

/-! ## Tokens -/

/-- What follows a token in a command line: its end or a blank. -/
def Apart (rest : List Char) : Prop := ∀ c ∈ rest.head?, Text.isBlank c = true

theorem tokensFrom_blank {rest : List Char} {found : List (List Char)}
    (more : tokensFrom .between rest = .ok found) :
    tokensFrom .between (' ' :: rest) = .ok found := by
  rw [tokensFrom, if_pos (by decide), more]

/-- A plain token ends where something apart begins. -/
theorem tokensFrom_plain_apart {rest token : List Char} {found : List (List Char)}
    (apart : Apart rest) (more : tokensFrom .between rest = .ok found) :
    tokensFrom (.plain token) rest = .ok (token.reverse :: found) := by
  cases rest with
  | nil =>
      rw [tokensFrom] at more
      obtain rfl := Except.ok.inj more
      rfl
  | cons c rest =>
      have blank : Text.isBlank c = true := apart c rfl
      rw [tokensFrom, if_pos blank] at more
      rw [tokensFrom, if_pos blank, more]
      rfl

/-- The characters of a plain token are taken together. -/
theorem tokensFrom_plain {word rest token : List Char} {found : List (List Char)}
    (plain : ∀ c ∈ word, Text.isBlank c = false) (apart : Apart rest)
    (more : tokensFrom .between rest = .ok found) :
    tokensFrom (.plain token) (word ++ rest) = .ok ((token.reverse ++ word) :: found) := by
  induction word generalizing token with
  | nil =>
      rw [List.nil_append, List.append_nil]
      exact tokensFrom_plain_apart apart more
  | cons c word ih =>
      have here : Text.isBlank c = false := plain c List.mem_cons_self
      rw [List.cons_append, tokensFrom, here, if_neg Bool.false_ne_true,
        ih fun other member => plain other (List.mem_cons_of_mem c member)]
      simp

/-- A word without blanks that does not begin with a quote is a token. -/
theorem tokensFrom_word {rest : List Char} {found : List (List Char)} (word : List Char)
    (nonempty : word ≠ [])
    (plain : ∀ c ∈ word, Text.isBlank c = false) (unquoted : word.head? ≠ some '\x22')
    (apart : Apart rest) (more : tokensFrom .between rest = .ok found) :
    tokensFrom .between (word ++ rest) = .ok (word :: found) := by
  cases word with
  | nil => exact absurd rfl nonempty
  | cons c word =>
      have here : Text.isBlank c = false := plain c List.mem_cons_self
      have other : (c == '\x22') = false := by
        rw [beq_eq_false_iff_ne]
        exact fun same => unquoted (congrArg some same)
      rw [List.cons_append, tokensFrom, here, other, if_neg Bool.false_ne_true,
        if_neg Bool.false_ne_true]
      exact tokensFrom_plain (fun c member => plain c (List.mem_cons_of_mem _ member)) apart more

/-- Between quotes everything is taken as it was before it was written. -/
theorem tokensFrom_quoted {value rest token : List Char} {found : List (List Char)}
    (more : tokensFrom .between rest = .ok found) :
    tokensFrom (.quoted token) (value.flatMap (fun c =>
        if c == '\x22' || c == '\\' then ['\\', c] else [c]) ++ '\x22' :: rest) =
      .ok ((token.reverse ++ value) :: found) := by
  induction value generalizing token with
  | nil =>
      rw [List.flatMap_nil, List.nil_append, List.append_nil, tokensFrom, if_neg (by decide),
        if_pos (by decide), more]
      rfl
  | cons c value ih =>
      rw [List.flatMap_cons, List.append_assoc]
      by_cases special : (c == '\x22' || c == '\\') = true
      · rw [if_pos special, List.cons_append, List.singleton_append, tokensFrom,
          if_pos (by decide), tokensFrom, ih]
        simp
      · obtain ⟨quote, backslash⟩ : (c == '\x22') = false ∧ (c == '\\') = false := by
          simpa using special
        rw [if_neg special, List.singleton_append, tokensFrom, backslash, quote,
          if_neg Bool.false_ne_true, if_neg Bool.false_ne_true, ih]
        simp

/-- A value is a token in the form in which it is written. -/
theorem tokensFrom_quote {rest : List Char} {found : List (List Char)} (value : List Char)
    (apart : Apart rest) (more : tokensFrom .between rest = .ok found) :
    tokensFrom .between (quote value ++ rest) = .ok (value :: found) := by
  rw [quote]
  split
  · rw [List.append_assoc, List.singleton_append, List.cons_append, tokensFrom,
      if_neg (by decide), if_pos (by decide)]
    exact tokensFrom_quoted more
  · rename_i plain
    simp only [needsQuotes, Bool.or_eq_true, List.isEmpty_iff, List.any_eq_true, not_or, not_exists,
      not_and, beq_iff_eq] at plain
    refine tokensFrom_word value plain.1 (fun c member => ?_) (fun quoted => ?_) apart more
    · exact Bool.eq_false_iff.2 (plain.2 c member).1.1
    · exact (plain.2 '\x22' (List.mem_of_mem_head? quoted)).1.2 rfl

/-! ## Arguments and data -/

/-- The tokens of an argument. -/
def argTokens (arg : Char × String) : List (List Char) := [['-', arg.1], arg.2.toList]

/-- The tokens of data; those of empty data have no text. -/
def dataTokens : Option String → List (List Char)
  | some data =>
    ['-', '-'] ::
      (if Text.bytesOf data = [] then [] else [Text.Base64.encode (Text.bytesOf data)])
  | none => []

/-- A command that a line can hold. -/
structure WellFormed (command : Command) : Prop where
  /-- There is a name. -/
  named : command.name.toList ≠ []
  /-- The name does not look like a quoted value. -/
  unquoted : command.name.toList.head? ≠ some '\x22'
  /-- Neither blanks nor zero characters are in the name. -/
  name : ∀ c ∈ command.name.toList, Text.isBlank c = false ∧ c ≠ '\x00'
  /-- No flag is that of the transaction id, and all can be told from blanks and dashes. -/
  flags : ∀ arg ∈ command.args,
    arg.1 ≠ 'i' ∧ arg.1 ≠ '-' ∧ Text.isBlank arg.1 = false ∧ arg.1 ≠ '\x00'
  /-- No zero character is in a value. -/
  values : ∀ arg ∈ command.args, '\x00' ∉ arg.2.toList

theorem tokensFrom_flag {flag : Char} {rest : List Char} {found : List (List Char)}
    (plain : Text.isBlank flag = false) (apart : Apart rest)
    (more : tokensFrom .between rest = .ok found) :
    tokensFrom .between (' ' :: '-' :: flag :: rest) = .ok (['-', flag] :: found) := by
  refine tokensFrom_blank (tokensFrom_word ['-', flag] (by simp) ?_ (by simp) apart more)
  intro c member
  rcases List.mem_cons.1 member with rfl | member
  · rfl
  · rw [List.mem_singleton.1 member]
    exact plain

theorem apart_blank (rest : List Char) : Apart (' ' :: rest) := by
  intro c head
  obtain rfl := Option.some.inj head
  rfl

theorem tokensFrom_writtenArg {arg : Char × String} {rest : List Char} {found : List (List Char)}
    (plain : Text.isBlank arg.1 = false) (apart : Apart rest)
    (more : tokensFrom .between rest = .ok found) :
    tokensFrom .between (writtenArg arg ++ rest) = .ok (argTokens arg ++ found) := by
  have value := tokensFrom_blank (tokensFrom_quote arg.2.toList apart more)
  exact tokensFrom_flag plain (apart_blank _) value

theorem apart_writtenArgs {args : List (Char × String)} {rest : List Char} (apart : Apart rest) :
    Apart (args.flatMap writtenArg ++ rest) := by
  cases args with
  | nil => exact apart
  | cons arg args => exact apart_blank _

theorem tokensFrom_writtenArgs {args : List (Char × String)} {rest : List Char}
    {found : List (List Char)} (plain : ∀ arg ∈ args, Text.isBlank arg.1 = false)
    (apart : Apart rest) (more : tokensFrom .between rest = .ok found) :
    tokensFrom .between (args.flatMap writtenArg ++ rest) =
      .ok (args.flatMap argTokens ++ found) := by
  induction args with
  | nil => exact more
  | cons arg args ih =>
      have later := ih fun other member => plain other (List.mem_cons_of_mem arg member)
      rw [List.flatMap_cons, List.flatMap_cons, List.append_assoc, List.append_assoc]
      exact tokensFrom_writtenArg (plain arg List.mem_cons_self) (apart_writtenArgs apart) later

theorem apart_writtenData (data : Option String) : Apart (writtenData data) := by
  cases data with
  | none => simp [Apart, writtenData]
  | some data => exact apart_blank _

theorem plain_digit {id : Nat} {c : Char} (member : c ∈ (toString id).toList) :
    Text.isBlank c = false ∧ c ≠ '\x22' ∧ c ≠ '\x00' := by
  have bounds := (Text.isDigit_iff c).1 (Text.isDigit_of_mem_toString member)
  refine ⟨?_, ?_, ?_⟩
  · simp [Text.isBlank]
    omega
  · rintro rfl
    exact absurd bounds (by decide)
  · rintro rfl
    exact absurd bounds (by decide)

theorem plain_symbol : ∀ value < 64, Text.isBlank (Text.Base64.symbol value) = false ∧
    Text.Base64.symbol value ≠ '\x22' ∧ Text.Base64.symbol value ≠ '\x00' := by
  decide

/-- Base-64 text has neither blanks nor quotes nor zero characters. -/
theorem plain_encode {bytes : List UInt8} {c : Char} (member : c ∈ Text.Base64.encode bytes) :
    Text.isBlank c = false ∧ c ≠ '\x22' ∧ c ≠ '\x00' := by
  obtain rfl | ⟨value, small, rfl⟩ := Text.Base64.mem_encode member
  · decide
  · exact plain_symbol value small

theorem tokensFrom_writtenData (data : Option String) :
    tokensFrom .between (writtenData data) = .ok (dataTokens data) := by
  cases data with
  | none => rfl
  | some data =>
      refine tokensFrom_flag rfl (apart_blank _) (tokensFrom_blank ?_)
      by_cases empty : Text.bytesOf data = []
      · rw [if_pos empty, empty]
        rfl
      · rw [if_neg empty]
        have word := tokensFrom_word (Text.Base64.encode (Text.bytesOf data))
          (Text.Base64.encode_ne_nil empty) (fun c member => (plain_encode member).1)
          (fun quoted => (plain_encode (List.mem_of_mem_head? quoted)).2.1 rfl)
          (apart_writtenData none) rfl
        rwa [writtenData, List.append_nil] at word

/-- The tokens of a command line. -/
theorem tokens_line {command : Command} (wellFormed : WellFormed command) (id : Nat) :
    tokens (command.line id) = .ok (command.name.toList :: ['-', 'i'] :: (toString id).toList ::
      (command.args.flatMap argTokens ++ dataTokens command.data)) := by
  have args := tokensFrom_writtenArgs (fun arg member => (wellFormed.flags arg member).2.2.1)
    (apart_writtenData command.data) (tokensFrom_writtenData command.data)
  have number := tokensFrom_word (toString id).toList (Text.toList_toString_ne_nil id)
    (fun c member => (plain_digit member).1)
    (fun quoted => (plain_digit (List.mem_of_mem_head? quoted)).2.1 rfl)
    (apart_writtenArgs (apart_writtenData command.data)) args
  have flag : tokensFrom .between (' ' :: '-' :: 'i' :: ' ' :: _) = _ :=
    tokensFrom_flag rfl (apart_blank _) (tokensFrom_blank number)
  have name := tokensFrom_word command.name.toList wellFormed.named
    (fun c member => (wellFormed.name c member).1) wellFormed.unquoted (apart_blank _) flag
  rw [tokens, line]
  simpa using name

/-! ## Zero characters -/

/-- A command with a zero character neither in its name nor among its flags. -/
structure PlainWords (command : Command) : Prop where
  /-- None is in the name. -/
  name : '\x00' ∉ command.name.toList
  /-- None is a flag. -/
  flags : ∀ arg ∈ command.args, arg.1 ≠ '\x00'

/-- The number of zero characters in the values of a command. -/
def zeros (command : Command) : Nat :=
  (command.args.map fun arg => arg.2.toList.count '\x00').sum

theorem count_escaped (value : List Char) :
    (value.flatMap fun c => if c == '\x22' || c == '\\' then ['\\', c] else [c]).count '\x00' =
      value.count '\x00' := by
  induction value with
  | nil => rfl
  | cons c value ih =>
      rw [List.flatMap_cons, List.count_append, ih, List.count_cons, Nat.add_comm]
      split
      · simp [List.count_cons]
      · simp [List.count_cons]

/-- Quoting keeps zero characters. -/
theorem count_quote (value : List Char) : (quote value).count '\x00' = value.count '\x00' := by
  rw [quote]
  split
  · rw [List.cons_append, List.count_cons, List.count_append, count_escaped]
    simp
  · rfl

theorem count_writtenArg {arg : Char × String} (plain : arg.1 ≠ '\x00') :
    (writtenArg arg).count '\x00' = arg.2.toList.count '\x00' := by
  simp [writtenArg, count_quote, plain]

theorem count_writtenArgs {args : List (Char × String)} (plain : ∀ arg ∈ args, arg.1 ≠ '\x00') :
    (args.flatMap writtenArg).count '\x00' =
      (args.map fun arg => arg.2.toList.count '\x00').sum := by
  induction args with
  | nil => rfl
  | cons arg args ih =>
      rw [List.flatMap_cons, List.count_append, List.map_cons, List.sum_cons,
        count_writtenArg (plain arg List.mem_cons_self),
        ih fun other member => plain other (List.mem_cons_of_mem arg member)]

theorem count_writtenData (data : Option String) : (writtenData data).count '\x00' = 0 := by
  cases data with
  | none => rfl
  | some text =>
      rw [writtenData, List.count_append, Nat.add_eq_zero_iff]
      exact ⟨rfl, List.count_eq_zero.2 fun zero => (plain_encode zero).2.2 rfl⟩

/-- The zero characters in a command line are those of its values. -/
theorem count_line {command : Command} (plain : PlainWords command) (id : Nat) :
    (command.line id).count '\x00' = command.zeros := by
  have number : (toString id).toList.count '\x00' = 0 :=
    List.count_eq_zero.2 fun zero => (plain_digit zero).2.2 rfl
  rw [line, List.count_append, List.count_append, List.count_append, List.count_append, number,
    List.count_eq_zero.2 plain.name, count_writtenArgs plain.flags, count_writtenData, zeros]
  simp

theorem zeros_eq_zero_iff (command : Command) :
    command.zeros = 0 ↔ ∀ arg ∈ command.args, '\x00' ∉ arg.2.toList := by
  rw [zeros, List.sum_eq_zero_iff_forall_eq_nat, List.forall_mem_map]
  simp only [List.count_eq_zero]

theorem WellFormed.plainWords {command : Command} (wellFormed : WellFormed command) :
    PlainWords command where
  name := fun zero => (wellFormed.name _ zero).2 rfl
  flags := fun arg member => (wellFormed.flags arg member).2.2.2

/-- No zero character is in a command line. -/
theorem not_mem_line {command : Command} (wellFormed : WellFormed command) (id : Nat) :
    '\x00' ∉ command.line id := by
  rw [← List.count_eq_zero, count_line wellFormed.plainWords, zeros_eq_zero_iff]
  exact wellFormed.values

/-! ## Reading the tokens -/

theorem decodeData_encode (data : String) :
    decodeData (Text.Base64.encode (Text.bytesOf data)) = .ok data := by
  rw [decodeData, Text.Base64.decode_encode]
  change ((Text.utf8? (Text.bytesOf data)).mapError DataFault.text >>= fun text =>
    Except.ok (String.ofList text)) = _
  rw [Text.utf8?_bytesOf]
  change Except.ok (String.ofList data.toList) = _
  rw [String.ofList_toList]

theorem parseArgs_dataTokens {command : Command} (plain : command.data = none) (id : Option Nat)
    (data : Option String) :
    parseArgs command id (dataTokens data) = .ok (id, { command with data := data }) := by
  cases data with
  | none => rw [dataTokens, parseArgs, ← plain]
  | some data =>
      have encoded : (if Text.bytesOf data = [] then []
          else [Text.Base64.encode (Text.bytesOf data)]).head?.getD [] =
          Text.Base64.encode (Text.bytesOf data) := by
        split
        · rename_i empty
          rw [empty]
          rfl
        · rfl
      unfold parseArgs
      simp only [dataTokens, beq_self_eq_true, if_true, encoded, decodeData_encode]
      rfl

theorem parseArgs_argTokens {command : Command} {id : Option Nat} {args : List (Char × String)}
    (flags : ∀ arg ∈ args, arg.1 ≠ 'i' ∧ arg.1 ≠ '-') (rest : List (List Char)) :
    parseArgs command id (args.flatMap argTokens ++ rest) =
      parseArgs { command with args := command.args ++ args } id rest := by
  induction args generalizing command with
  | nil => rw [List.flatMap_nil, List.nil_append, List.append_nil]
  | cons arg args ih =>
      obtain ⟨notId, notDash⟩ := flags arg List.mem_cons_self
      have dashes : ((['-', arg.1] : List Char) == ['-', '-']) = false := by simpa using notDash
      have transaction : (arg.1 == 'i') = false := beq_eq_false_iff_ne.2 notId
      rw [List.flatMap_cons, argTokens, List.append_assoc]
      simp only [List.cons_append, List.nil_append]
      rw [parseArgs, dashes, if_neg Bool.false_ne_true]
      simp only [transaction, if_neg Bool.false_ne_true, Command.arg, String.ofList_toList]
      rw [ih fun other member => flags other (List.mem_cons_of_mem arg member)]
      simp only [List.append_assoc, List.singleton_append]

theorem parseArgs_id {command : Command} {id : Nat} (bound : id ≤ Text.maxWord)
    (rest : List (List Char)) :
    parseArgs command none (['-', 'i'] :: (toString id).toList :: rest) =
      parseArgs command (some id) rest := by
  rw [parseArgs, if_neg (by decide)]
  simp only [beq_self_eq_true, if_true, Text.bounded?_toString bound]

/-- A command line is read back as the command that it was written for. -/
theorem parse_encode {command : Command} {id : Nat} (wellFormed : WellFormed command)
    (bound : id ≤ Text.maxWord) : parse (command.encode id) = .ok (id, command) := by
  have nonzero : ∀ b ∈ Text.utf8 (command.line id), (b != 0) = true := by
    intro b member
    refine bne_iff_ne.2 fun zero => Text.not_mem_utf8 (not_mem_line wellFormed id) (zero ▸ member)
  have bytes : (command.encode id).takeWhile (· != 0) = Text.utf8 (command.line id) := by
    rw [encode, List.takeWhile_append_of_pos nonzero]
    simp
  have args : parseArgs (named command.name) (some id)
      (command.args.flatMap argTokens ++ dataTokens command.data) = _ :=
    parseArgs_argTokens (fun arg member =>
      ⟨(wellFormed.flags arg member).1, (wellFormed.flags arg member).2.1⟩) _
  rw [parseArgs_dataTokens rfl] at args
  rw [parse, bytes, Text.utf8?_utf8]
  change ((tokens (command.line id)).mapError ProtocolError.malformedCommand >>= fun found => _) = _
  rw [tokens_line wellFormed]
  change (parseArgs (named (String.ofList command.name.toList)) none _ >>= fun found => _) = _
  rw [String.ofList_toList, parseArgs_id bound, args]
  rfl

/-- Values that are empty, look like flags or hold quotes and backslashes, and empty data. -/
theorem parse_encode_awkward :
    parse (encode ⟨"set", [('n', ""), ('v', "a \" b \\"), ('x', "--")], some ""⟩ 7) =
      .ok (7, ⟨"set", [('n', ""), ('v', "a \" b \\"), ('x', "--")], some ""⟩) :=
  parse_encode ⟨by decide, by decide, by simp [Text.isBlank], by decide, by decide⟩ (by decide)

end Command
end DebugBridge
