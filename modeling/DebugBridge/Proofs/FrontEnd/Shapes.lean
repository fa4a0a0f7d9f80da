import DebugBridge.FrontEnd.Shapes
import Mathlib.Data.List.Forall2
import Mathlib.Data.List.Nodup
import Mathlib.Tactic.Simps.Basic

/-!
# Shapes survive

What is written for a front end is read back as it was.  A shape is written as a record with its
members, less those that are absent or empty.  It is read back from every record that has these members,
in whatever order and whatever else the record and the records inside it have.
-/

namespace DebugBridge

/-- How something is written as data, and read from all data that means it. -/
structure Codec (α : Type) where
  /-- Writes it. -/
  write : α → Value
  /-- Reads it. -/
  read? : Value → Option α
  /-- Whether data means it. -/
  Means : α → Value → Prop
  means_write : ∀ item, Means item (write item)
  read?_of_means : ∀ item value, Means item value → read? value = some item
  read?_null : read? .null = none

/-- A member of a shape. -/
structure Field (σ : Type) where
  /-- Its name. -/
  name : String
  /-- What is written for it, unless it is left out. -/
  written? : σ → Option Value
  /-- Whether data means what the shape has for it. -/
  Means : σ → Value → Prop
  means_written : ∀ shape value, written? shape = some value → Means shape value

namespace Codec

variable {α : Type}

/-- What nothing means but the data that is written for it. -/
def exact (write : α → Value) (read? : Value → Option α)
    (read?_write : ∀ item, read? (write item) = some item) (read?_null : read? .null = none) :
    Codec α where
  write := write
  read? := read?
  Means item value := value = write item
  means_write _ := rfl
  read?_of_means := by
    rintro item _ rfl
    exact read?_write item
  read?_null := read?_null

theorem word32?_word32 (number : UInt32) : (Value.word32 number).word32? = some number := by
  have bound : number.toNat ≤ Text.maxWord := Nat.le_of_lt_succ number.toNat_lt
  simp [Value.word32?, Value.word32, Value.word?, Value.natural?, bound]

theorem int64?_int64 (number : Int64) : (Value.int64 number).int64? = some number := by
  have lower : -(Text.maxSigned + 1 : Int) ≤ number.toInt := number.le_toInt
  have upper : number.toInt ≤ Text.maxSigned := number.toInt_le
  have inside : (-(Text.maxSigned + 1 : Int) ≤ number.toInt && number.toInt ≤ Text.maxSigned) =
      true := by
    rw [Bool.and_eq_true, decide_eq_true_eq, decide_eq_true_eq]
    exact ⟨lower, upper⟩
  rw [Value.int64?, Value.int64, Value.long?, if_pos inside, Option.map_some, Int64.ofInt_toInt]

theorem stopReason_ofValue?_toValue (reason : StopReason) :
    StopReason.ofValue? reason.toValue = some reason := by
  cases reason <;> rfl

@[simps! -fullyApplied write read?]
def text : Codec String := exact .text Value.text? (fun _ => rfl) rfl

@[simps! -fullyApplied write read?]
def boolean : Codec Bool := exact .boolean Value.boolean? (fun _ => rfl) rfl

@[simps! -fullyApplied write read?]
def word32 : Codec UInt32 := exact .word32 Value.word32? word32?_word32 rfl

@[simps! -fullyApplied write read?]
def int64 : Codec Int64 := exact .int64 Value.int64? int64?_int64 rfl

@[simps! -fullyApplied write read?]
def stopReason : Codec StopReason :=
  exact StopReason.toValue StopReason.ofValue? stopReason_ofValue?_toValue rfl

theorem mapM_read? (codec : Codec α) {items : List α} {values : List Value}
    (mean : List.Forall₂ codec.Means items values) : values.mapM codec.read? = some items := by
  induction mean with
  | nil => rfl
  | cons means _ ih =>
      rw [List.mapM_cons, codec.read?_of_means _ _ means, ih]
      rfl

/-- A list of what a codec is for. -/
@[simps -fullyApplied write read?]
def list (codec : Codec α) : Codec (List α) where
  write := .listOf codec.write
  read? := Value.listOf? codec.read?
  Means items value := ∃ values, value = .list values ∧ List.Forall₂ codec.Means items values
  means_write items := ⟨items.map codec.write, rfl,
    List.forall₂_map_right_iff.2 (List.forall₂_same.2 fun item _ => codec.means_write item)⟩
  read?_of_means := by
    rintro items _ ⟨values, rfl, mean⟩
    exact codec.mapM_read? mean
  read?_null := rfl

end Codec

namespace Field

variable {σ α : Type}

/-- A member that is always written. -/
def required (name : String) (get : σ → α) (codec : Codec α) : Field σ where
  name := name
  written? shape := some (codec.write (get shape))
  Means shape := codec.Means (get shape)
  means_written := by
    rintro shape _ ⟨⟩
    exact codec.means_write (get shape)

/-- A member that is left out if it is absent. -/
def optional (name : String) (get : σ → Option α) (codec : Codec α) : Field σ where
  name := name
  written? shape := (get shape).map codec.write
  Means shape value := ∃ item, get shape = some item ∧ codec.Means item value
  means_written shape value written := by
    obtain ⟨item, there, rfl⟩ := Option.map_eq_some_iff.1 written
    exact ⟨item, there, codec.means_write item⟩

/-- A member that is left out if it is empty. -/
def unlessEmpty (name : String) (get : σ → List α) (codec : Codec α) : Field σ where
  name := name
  written? shape := if (get shape).isEmpty then none else some (codec.list.write (get shape))
  Means shape := codec.list.Means (get shape)
  means_written shape value written := by
    split at written
    · cases written
    · cases written
      exact codec.list.means_write (get shape)

/-- The member as it is written. -/
def entries (field : Field σ) (shape : σ) : List (String × Value) :=
  ((field.written? shape).map fun value => (field.name, value)).toList

/-- Whether what a record has under the name of a member means what a shape has for it. -/
def Shows (field : Field σ) (shape : σ) (entry : Option Value) : Prop :=
  match field.written? shape with
  | none => entry = none
  | some _ => ∃ value, entry = some value ∧ field.Means shape value

theorem shows_written (field : Field σ) (shape : σ) :
    field.Shows shape (field.written? shape) := by
  unfold Shows
  split
  next absent => exact absent
  next value written => exact ⟨value, written, field.means_written shape value written⟩

/-! ## Reading -/

section Reading

variable {name : String} {codec : Codec α} {shape : σ} {members : Members}

theorem required_read {get : σ → α}
    (shows : (required name get codec).Shows shape (members.get? name)) :
    members.required name codec.read? = some (get shape) := by
  obtain ⟨value, here, means⟩ := shows
  rw [Members.required, here]
  exact codec.read?_of_means _ _ means

theorem required_defaulted {get : σ → α} (default : α)
    (shows : (required name get codec).Shows shape (members.get? name)) :
    members.defaulted name codec.read? default = some (get shape) := by
  obtain ⟨value, here, means⟩ := shows
  rw [Members.defaulted, here]
  exact codec.read?_of_means _ _ means

theorem optional_read {get : σ → Option α}
    (shows : (optional name get codec).Shows shape (members.get? name)) :
    members.optional name codec.read? = some (get shape) := by
  cases there : get shape with
  | none =>
      have absent : members.get? name = none := by simpa [Shows, optional, there] using shows
      rw [Members.optional, absent]
  | some item =>
      obtain ⟨value, here, means⟩ : ∃ value, members.get? name = some value ∧
          codec.Means item value := by simpa [Shows, optional, there] using shows
      have read := codec.read?_of_means item value means
      have other : value ≠ .null := by
        rintro rfl
        rw [codec.read?_null] at read
        cases read
      rw [Members.optional, here]
      split
      next absent => cases absent
      next null => exact absurd (Option.some.inj null) other
      next value same =>
        cases same
        rw [read]
        rfl

theorem unlessEmpty_read {get : σ → List α}
    (shows : (unlessEmpty name get codec).Shows shape (members.get? name)) :
    members.defaulted name codec.list.read? [] = some (get shape) := by
  cases there : get shape with
  | nil =>
      have absent : members.get? name = none := by simpa [Shows, unlessEmpty, there] using shows
      rw [Members.defaulted, absent]
  | cons item items =>
      obtain ⟨value, here, means⟩ : ∃ value, members.get? name = some value ∧
          codec.list.Means (item :: items) value := by simpa [Shows, unlessEmpty, there] using shows
      rw [Members.defaulted, here]
      exact codec.list.read?_of_means _ _ means

end Reading

end Field

/-! ## Records -/

section Records

variable {σ : Type}

/-- Whether a record has, member by member, what means a shape. -/
def Holds (fields : List (Field σ)) (shape : σ) (entries : List (String × Value)) : Prop :=
  ∀ field ∈ fields, field.Shows shape (Members.get? ⟨entries⟩ field.name)

/-- A shape that is written as its members and read back from every record that has them. -/
structure Survives (toValue : σ → Value) (ofValue? : Value → Option σ) (fields : List (Field σ)) :
    Prop where
  /-- The members have different names. -/
  distinct : (fields.map Field.name).Nodup
  /-- They are written, less those that are left out. -/
  written : ∀ shape, toValue shape = .record (fields.flatMap fun field => field.entries shape)
  /-- What is written is read back. -/
  back : ∀ shape, ofValue? (toValue shape) = some shape
  /-- So it is with unknown members added to it anywhere. -/
  more : ∀ shape entries others extra, toValue shape = .record entries →
    (∀ entry ∈ extra, entry.1 ∉ fields.map Field.name) → others.Perm (entries ++ extra) →
    ofValue? (.record others) = some shape
  /-- So it is with any record that means the shape, the records inside it included. -/
  means : ∀ shape entries, Holds fields shape entries → ofValue? (.record entries) = some shape

/-- The value of a member whose name only it has. -/
theorem get?_eq {entries : List (String × Value)} {name : String} {value? : Option Value}
    (there : ∀ value, (name, value) ∈ entries ↔ value? = some value) :
    Members.get? ⟨entries⟩ name = value? := by
  rw [Members.get?]
  cases found : entries.find? fun entry => entry.1 == name with
  | none =>
      have absent := List.find?_eq_none.1 found
      cases value? with
      | none => rfl
      | some value => exact absurd (beq_self_eq_true name) (absent _ ((there value).2 rfl))
  | some entry =>
      have member := List.mem_of_find?_eq_some found
      have named : entry.1 = name := by simpa using List.find?_some found
      exact ((there entry.2).1 (named ▸ member)).symm

theorem mem_entries {field : Field σ} {shape : σ} {entry : String × Value} :
    entry ∈ field.entries shape ↔ field.name = entry.1 ∧ field.written? shape = some entry.2 := by
  rw [Field.entries, Option.mem_toList, Option.map_eq_some_iff]
  constructor
  · rintro ⟨value, written, rfl⟩
    exact ⟨rfl, written⟩
  · rintro ⟨name, written⟩
    exact ⟨entry.2, written, Prod.ext name rfl⟩

/-- What is written means the shape, whatever is added. -/
theorem holds_of_perm {fields : List (Field σ)} (distinct : (fields.map Field.name).Nodup)
    (shape : σ) {others extra : List (String × Value)}
    (unknown : ∀ entry ∈ extra, entry.1 ∉ fields.map Field.name)
    (same : others.Perm (fields.flatMap (fun field => field.entries shape) ++ extra)) :
    Holds fields shape others := by
  intro field member
  have there (value : Value) :
      (field.name, value) ∈ others ↔ field.written? shape = some value := by
    rw [same.mem_iff, List.mem_append, List.mem_flatMap]
    constructor
    · rintro (⟨other, place, written⟩ | added)
      · obtain ⟨name, written⟩ := mem_entries.1 written
        obtain rfl : other = field := List.inj_on_of_nodup_map distinct place member name
        exact written
      · exact absurd (List.mem_map_of_mem member) (unknown _ added)
    · exact fun written => .inl ⟨field, member, mem_entries.2 ⟨rfl, written⟩⟩
  rw [get?_eq there]
  exact field.shows_written shape

/-- A shape that is written as its members and read from every record that means it survives. -/
theorem survives_of_reads {toValue : σ → Value} {ofValue? : Value → Option σ}
    {fields : List (Field σ)} (distinct : (fields.map Field.name).Nodup)
    (written : ∀ shape, toValue shape = .record (fields.flatMap fun field => field.entries shape))
    (means : ∀ shape entries, Holds fields shape entries →
      ofValue? (.record entries) = some shape) : Survives toValue ofValue? fields where
  distinct := distinct
  written := written
  back shape := by
    rw [written]
    exact means shape _ (holds_of_perm distinct shape (List.forall_mem_nil _)
      (by rw [List.append_nil]))
  more shape entries others extra eq unknown same := by
    rw [written] at eq
    cases eq
    exact means shape others (holds_of_perm distinct shape unknown same)
  means := means

/-- A shape inside another one. -/
@[simps -fullyApplied write read?]
def Survives.codec {toValue : σ → Value} {ofValue? : Value → Option σ} {fields : List (Field σ)}
    (survives : Survives toValue ofValue? fields) (null : ofValue? .null = none) : Codec σ where
  write := toValue
  read? := ofValue?
  Means shape value := ∃ entries, value = .record entries ∧ Holds fields shape entries
  means_write shape := ⟨_, survives.written shape, holds_of_perm survives.distinct shape
    (List.forall_mem_nil _) (by rw [List.append_nil])⟩
  read?_of_means := by
    rintro shape _ ⟨entries, rfl, holds⟩
    exact survives.means shape entries holds
  read?_null := null

end Records

namespace Field

variable {σ α : Type}

@[simp] theorem entries_required (name : String) (get : σ → α) (codec : Codec α) (shape : σ) :
    (required name get codec).entries shape = [(name, codec.write (get shape))] := rfl

@[simp] theorem entries_optional (name : String) (get : σ → Option α) (codec : Codec α)
    (shape : σ) : (optional name get codec).entries shape =
      Value.present name codec.write (get shape) := by
  cases there : get shape <;> simp [entries, optional, there, Value.present]

@[simp] theorem entries_unlessEmpty (name : String) (get : σ → List α) (codec : Codec α)
    (shape : σ) : (unlessEmpty name get codec).entries shape =
      if (get shape).isEmpty then [] else [(name, .listOf codec.write (get shape))] := by
  cases there : get shape <;> simp [entries, unlessEmpty, there, Codec.list]

end Field

/-! ## The shapes -/

namespace ExceptionFilter

/-- The members of the shape. -/
def fields : List (Field ExceptionFilter) :=
  [.required "filter" filter .text, .required "label" label .text,
   .optional "default" default .boolean]

theorem survives : Survives toValue ofValue? fields := by
  refine survives_of_reads (by decide) (fun kind => ?_) fun kind entries holds => ?_
  · simp [toValue, fields]
  · simp only [Holds, fields, List.forall_mem_cons] at holds
    obtain ⟨filter, label, default, -⟩ := holds
    simp only [ofValue?, Value.members?, Option.bind_eq_bind, Option.bind_some, Option.pure_def,
      ← Codec.text_read?, ← Codec.boolean_read?, Field.required_read filter,
      Field.required_read label, Field.optional_read default]

@[simps! -fullyApplied write read?]
def codec : Codec ExceptionFilter := survives.codec rfl

end ExceptionFilter

namespace Capabilities

/-- The members of the shape. -/
def fields : List (Field Capabilities) :=
  [.optional "supportsConfigurationDoneRequest" configurationDone .boolean,
   .optional "supportsFunctionBreakpoints" functionBreakpoints .boolean,
   .optional "supportsConditionalBreakpoints" conditionalBreakpoints .boolean,
   .optional "supportsHitConditionalBreakpoints" hitConditions .boolean,
   .optional "supportsLogPoints" logPoints .boolean,
   .optional "supportsEvaluateForHovers" hovers .boolean,
   .optional "supportsCompletionsRequest" completions .boolean,
   .optional "supportsLoadedSourcesRequest" loadedSources .boolean,
   .optional "supportsExceptionInfoRequest" exceptionInfo .boolean,
   .optional "supportTerminateDebuggee" terminate .boolean,
   .optional "exceptionBreakpointFilters" exceptionFilters ExceptionFilter.codec.list]

theorem survives : Survives toValue ofValue? fields := by
  refine survives_of_reads (by decide) (fun capabilities => ?_) fun capabilities entries holds => ?_
  · simp [toValue, fields]
  · simp only [Holds, fields, List.forall_mem_cons] at holds
    obtain ⟨configurationDone, functionBreakpoints, conditionalBreakpoints, hitConditions, logPoints,
      hovers, completions, loadedSources, exceptionInfo, terminate, exceptionFilters, -⟩ := holds
    simp only [ofValue?, Value.members?, Option.bind_eq_bind, Option.bind_some, Option.pure_def,
      ← Codec.boolean_read?, ← ExceptionFilter.codec_read?, ← Codec.list_read?,
      Field.optional_read configurationDone, Field.optional_read functionBreakpoints,
      Field.optional_read conditionalBreakpoints, Field.optional_read hitConditions,
      Field.optional_read logPoints, Field.optional_read hovers, Field.optional_read completions,
      Field.optional_read loadedSources, Field.optional_read exceptionInfo,
      Field.optional_read terminate, Field.optional_read exceptionFilters]

end Capabilities

namespace SourceInfo

/-- The members of the shape. -/
def fields : List (Field SourceInfo) :=
  [.optional "name" name .text, .optional "path" path .text]

theorem survives : Survives toValue ofValue? fields := by
  refine survives_of_reads (by decide) (fun source => ?_) fun source entries holds => ?_
  · simp [toValue, fields]
  · simp only [Holds, fields, List.forall_mem_cons] at holds
    obtain ⟨name, path, -⟩ := holds
    simp only [ofValue?, Value.members?, Option.bind_eq_bind, Option.bind_some, Option.pure_def,
      ← Codec.text_read?, Field.optional_read name, Field.optional_read path]

@[simps! -fullyApplied write read?]
def codec : Codec SourceInfo := survives.codec rfl

end SourceInfo

namespace SourceBreakpoint

/-- The members of the shape. -/
def fields : List (Field SourceBreakpoint) :=
  [.required "line" line .word32, .optional "column" column .word32,
   .optional "condition" condition .text, .optional "hitCondition" hitCondition .text,
   .optional "logMessage" logMessage .text]

theorem survives : Survives toValue ofValue? fields := by
  refine survives_of_reads (by decide) (fun wanted => ?_) fun wanted entries holds => ?_
  · simp [toValue, fields]
  · simp only [Holds, fields, List.forall_mem_cons] at holds
    obtain ⟨line, column, condition, hitCondition, logMessage, -⟩ := holds
    simp only [ofValue?, Value.members?, Option.bind_eq_bind, Option.bind_some, Option.pure_def,
      ← Codec.word32_read?, ← Codec.text_read?, Field.required_read line,
      Field.optional_read column, Field.optional_read condition, Field.optional_read hitCondition,
      Field.optional_read logMessage]

@[simps! -fullyApplied write read?]
def codec : Codec SourceBreakpoint := survives.codec rfl

end SourceBreakpoint

namespace BreakpointsRequest

/-- The members of the shape. -/
def fields : List (Field BreakpointsRequest) :=
  [.required "source" source SourceInfo.codec,
   .required "breakpoints" breakpoints SourceBreakpoint.codec.list]

theorem survives : Survives toValue ofValue? fields := by
  refine survives_of_reads (by decide) (fun request => ?_) fun request entries holds => ?_
  · simp [toValue, fields]
  · simp only [Holds, fields, List.forall_mem_cons] at holds
    obtain ⟨source, breakpoints, -⟩ := holds
    simp only [ofValue?, Value.members?, Option.bind_eq_bind, Option.bind_some, Option.pure_def,
      ← SourceInfo.codec_read?, ← SourceBreakpoint.codec_read?, ← Codec.list_read?,
      Field.required_read source, Field.required_defaulted [] breakpoints]

end BreakpointsRequest

namespace FunctionBreakpoint

/-- The members of the shape. -/
def fields : List (Field FunctionBreakpoint) :=
  [.required "name" name .text, .optional "condition" condition .text,
   .optional "hitCondition" hitCondition .text]

theorem survives : Survives toValue ofValue? fields := by
  refine survives_of_reads (by decide) (fun wanted => ?_) fun wanted entries holds => ?_
  · simp [toValue, fields]
  · simp only [Holds, fields, List.forall_mem_cons] at holds
    obtain ⟨name, condition, hitCondition, -⟩ := holds
    simp only [ofValue?, Value.members?, Option.bind_eq_bind, Option.bind_some, Option.pure_def,
      ← Codec.text_read?, Field.required_read name, Field.optional_read condition,
      Field.optional_read hitCondition]

end FunctionBreakpoint

namespace BreakpointReport

/-- The members of the shape. -/
def fields : List (Field BreakpointReport) :=
  [.optional "id" id .word32, .required "verified" verified .boolean,
   .optional "message" message .text, .optional "source" source SourceInfo.codec,
   .optional "line" line .word32, .optional "column" column .word32]

theorem survives : Survives toValue ofValue? fields := by
  refine survives_of_reads (by decide) (fun report => ?_) fun report entries holds => ?_
  · simp [toValue, fields]
  · simp only [Holds, fields, List.forall_mem_cons] at holds
    obtain ⟨id, verified, message, source, line, column, -⟩ := holds
    simp only [ofValue?, Value.members?, Option.bind_eq_bind, Option.bind_some, Option.pure_def,
      ← Codec.word32_read?, ← Codec.boolean_read?, ← Codec.text_read?, ← SourceInfo.codec_read?,
      Field.optional_read id, Field.required_read verified, Field.optional_read message,
      Field.optional_read source, Field.optional_read line, Field.optional_read column]

end BreakpointReport

namespace ThreadInfo

/-- The members of the shape. -/
def fields : List (Field ThreadInfo) :=
  [.required "id" id .int64, .required "name" name .text]

theorem survives : Survives toValue ofValue? fields := by
  refine survives_of_reads (by decide) (fun thread => ?_) fun thread entries holds => ?_
  · simp [toValue, fields]
  · simp only [Holds, fields, List.forall_mem_cons] at holds
    obtain ⟨id, name, -⟩ := holds
    simp only [ofValue?, Value.members?, Option.bind_eq_bind, Option.bind_some, Option.pure_def,
      ← Codec.int64_read?, ← Codec.text_read?, Field.required_read id, Field.required_read name]

end ThreadInfo

namespace StackFrame

/-- The members of the shape. -/
def fields : List (Field StackFrame) :=
  [.required "id" id .int64, .required "name" name .text,
   .optional "source" source SourceInfo.codec, .required "line" line .word32,
   .required "column" column .word32]

theorem survives : Survives toValue ofValue? fields := by
  refine survives_of_reads (by decide) (fun frame => ?_) fun frame entries holds => ?_
  · simp [toValue, fields]
  · simp only [Holds, fields, List.forall_mem_cons] at holds
    obtain ⟨id, name, source, line, column, -⟩ := holds
    simp only [ofValue?, Value.members?, Option.bind_eq_bind, Option.bind_some, Option.pure_def,
      ← Codec.int64_read?, ← Codec.text_read?, ← SourceInfo.codec_read?, ← Codec.word32_read?,
      Field.required_read id, Field.required_read name, Field.optional_read source,
      Field.required_read line, Field.required_read column]

end StackFrame

namespace Scope

/-- The members of the shape. -/
def fields : List (Field Scope) :=
  [.required "name" name .text, .required "variablesReference" reference .int64,
   .required "expensive" expensive .boolean]

theorem survives : Survives toValue ofValue? fields := by
  refine survives_of_reads (by decide) (fun scope => ?_) fun scope entries holds => ?_
  · simp [toValue, fields]
  · simp only [Holds, fields, List.forall_mem_cons] at holds
    obtain ⟨name, reference, expensive, -⟩ := holds
    simp only [ofValue?, Value.members?, Option.bind_eq_bind, Option.bind_some, Option.pure_def,
      ← Codec.text_read?, ← Codec.int64_read?, ← Codec.boolean_read?, Field.required_read name,
      Field.required_read reference, Field.required_read expensive]

end Scope

namespace Variable

/-- The members of the shape. -/
def fields : List (Field Variable) :=
  [.required "name" name .text, .required "value" value .text, .optional "type" kind .text,
   .optional "evaluateName" evaluateName .text, .required "variablesReference" reference .int64,
   .optional "namedVariables" childCount .word32]

theorem survives : Survives toValue ofValue? fields := by
  refine survives_of_reads (by decide) (fun found => ?_) fun found entries holds => ?_
  · simp [toValue, fields]
  · simp only [Holds, fields, List.forall_mem_cons] at holds
    obtain ⟨name, value, kind, evaluateName, reference, childCount, -⟩ := holds
    simp only [ofValue?, Value.members?, Option.bind_eq_bind, Option.bind_some, Option.pure_def,
      ← Codec.text_read?, ← Codec.int64_read?, ← Codec.word32_read?, Field.required_read name,
      Field.required_read value, Field.optional_read kind, Field.optional_read evaluateName,
      Field.required_read reference, Field.optional_read childCount]

end Variable

namespace EvaluateRequest

/-- The members of the shape. -/
def fields : List (Field EvaluateRequest) :=
  [.required "expression" expression .text, .optional "frameId" frameId .int64,
   .optional "context" context .text]

theorem survives : Survives toValue ofValue? fields := by
  refine survives_of_reads (by decide) (fun request => ?_) fun request entries holds => ?_
  · simp [toValue, fields]
  · simp only [Holds, fields, List.forall_mem_cons] at holds
    obtain ⟨expression, frameId, context, -⟩ := holds
    simp only [ofValue?, Value.members?, Option.bind_eq_bind, Option.bind_some, Option.pure_def,
      ← Codec.text_read?, ← Codec.int64_read?, Field.required_read expression,
      Field.optional_read frameId, Field.optional_read context]

end EvaluateRequest

namespace EvaluateResult

/-- The members of the shape. -/
def fields : List (Field EvaluateResult) :=
  [.required "result" result .text, .optional "type" kind .text,
   .required "variablesReference" reference .int64]

theorem survives : Survives toValue ofValue? fields := by
  refine survives_of_reads (by decide) (fun answer => ?_) fun answer entries holds => ?_
  · simp [toValue, fields]
  · simp only [Holds, fields, List.forall_mem_cons] at holds
    obtain ⟨result, kind, reference, -⟩ := holds
    simp only [ofValue?, Value.members?, Option.bind_eq_bind, Option.bind_some, Option.pure_def,
      ← Codec.text_read?, ← Codec.int64_read?, Field.required_read result, Field.optional_read kind,
      Field.required_read reference]

end EvaluateResult

namespace CompletionItem

/-- The members of the shape. -/
def fields : List (Field CompletionItem) :=
  [.required "label" label .text, .optional "type" kind .text]

theorem survives : Survives toValue ofValue? fields := by
  refine survives_of_reads (by decide) (fun item => ?_) fun item entries holds => ?_
  · simp [toValue, fields]
  · simp only [Holds, fields, List.forall_mem_cons] at holds
    obtain ⟨label, kind, -⟩ := holds
    simp only [ofValue?, Value.members?, Option.bind_eq_bind, Option.bind_some, Option.pure_def,
      ← Codec.text_read?, Field.required_read label, Field.optional_read kind]

end CompletionItem

namespace StoppedEvent

/-- The members of the shape. -/
def fields : List (Field StoppedEvent) :=
  [.required "reason" reason .stopReason, .optional "description" description .text,
   .optional "threadId" threadId .int64, .optional "text" text .text,
   .unlessEmpty "hitBreakpointIds" hitBreakpointIds .word32]

theorem survives : Survives toValue ofValue? fields := by
  refine survives_of_reads (by decide) (fun event => ?_) fun event entries holds => ?_
  · simp [toValue, fields]
  · simp only [Holds, fields, List.forall_mem_cons] at holds
    obtain ⟨reason, description, threadId, text, hitBreakpointIds, -⟩ := holds
    simp only [ofValue?, Value.members?, Option.bind_eq_bind, Option.bind_some, Option.pure_def,
      ← Codec.stopReason_read?, ← Codec.text_read?, ← Codec.int64_read?, ← Codec.word32_read?,
      ← Codec.list_read?, Field.required_read reason, Field.optional_read description,
      Field.optional_read threadId, Field.optional_read text,
      Field.unlessEmpty_read hitBreakpointIds]

end StoppedEvent

namespace OutputEvent

/-- The members of the shape. -/
def fields : List (Field OutputEvent) :=
  [.optional "category" category .text, .required "output" output .text]

theorem survives : Survives toValue ofValue? fields := by
  refine survives_of_reads (by decide) (fun event => ?_) fun event entries holds => ?_
  · simp [toValue, fields]
  · simp only [Holds, fields, List.forall_mem_cons] at holds
    obtain ⟨category, output, -⟩ := holds
    simp only [ofValue?, Value.members?, Option.bind_eq_bind, Option.bind_some, Option.pure_def,
      ← Codec.text_read?, Field.optional_read category, Field.required_read output]

end OutputEvent

namespace ExitedEvent

/-- The members of the shape. -/
def fields : List (Field ExitedEvent) :=
  [.required "exitCode" exitCode .int64]

theorem survives : Survives toValue ofValue? fields := by
  refine survives_of_reads (by decide) (fun event => ?_) fun event entries holds => ?_
  · simp [toValue, fields]
  · simp only [Holds, fields, List.forall_mem_cons] at holds
    obtain ⟨exitCode, -⟩ := holds
    simp only [ofValue?, Value.members?, Option.bind_eq_bind, Option.bind_some, Option.pure_def,
      ← Codec.int64_read?, Field.required_read exitCode]

end ExitedEvent

/-- Every shape survives being written and read back, whatever members are added. -/
theorem shapes_survive :
    Survives Capabilities.toValue Capabilities.ofValue? Capabilities.fields ∧
    Survives SourceInfo.toValue SourceInfo.ofValue? SourceInfo.fields ∧
    Survives BreakpointsRequest.toValue BreakpointsRequest.ofValue? BreakpointsRequest.fields ∧
    Survives SourceBreakpoint.toValue SourceBreakpoint.ofValue? SourceBreakpoint.fields ∧
    Survives FunctionBreakpoint.toValue FunctionBreakpoint.ofValue? FunctionBreakpoint.fields ∧
    Survives BreakpointReport.toValue BreakpointReport.ofValue? BreakpointReport.fields ∧
    Survives ThreadInfo.toValue ThreadInfo.ofValue? ThreadInfo.fields ∧
    Survives StackFrame.toValue StackFrame.ofValue? StackFrame.fields ∧
    Survives Scope.toValue Scope.ofValue? Scope.fields ∧
    Survives Variable.toValue Variable.ofValue? Variable.fields ∧
    Survives EvaluateRequest.toValue EvaluateRequest.ofValue? EvaluateRequest.fields ∧
    Survives EvaluateResult.toValue EvaluateResult.ofValue? EvaluateResult.fields ∧
    Survives CompletionItem.toValue CompletionItem.ofValue? CompletionItem.fields ∧
    Survives StoppedEvent.toValue StoppedEvent.ofValue? StoppedEvent.fields ∧
    Survives OutputEvent.toValue OutputEvent.ofValue? OutputEvent.fields ∧
    Survives ExitedEvent.toValue ExitedEvent.ofValue? ExitedEvent.fields :=
  ⟨Capabilities.survives, SourceInfo.survives, BreakpointsRequest.survives,
    SourceBreakpoint.survives, FunctionBreakpoint.survives, BreakpointReport.survives,
    ThreadInfo.survives, StackFrame.survives, Scope.survives, Variable.survives,
    EvaluateRequest.survives, EvaluateResult.survives, CompletionItem.survives,
    StoppedEvent.survives, OutputEvent.survives, ExitedEvent.survives⟩

/-- An event without a description, a text and breakpoints. -/
example : StoppedEvent.toValue ⟨.entry, none, some 1, none, []⟩ =
    .record [("reason", .text "entry"), ("threadId", .integer 1)] := rfl

end DebugBridge
