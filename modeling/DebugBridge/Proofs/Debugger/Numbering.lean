import DebugBridge.Proofs.Debugger.Resumption
import Mathlib.Data.List.Pairwise

/-!
# Numbers for frames and variables

Whoever looks at a script that has stopped is given numbers for its frames, for groups of variables
and for properties with children, and asks on by these numbers.  A ledger keeps what each number was
given for.  It says what the engine is to be asked when a number is used, and from the engine's
answers it can be told which numbers are given next.
-/

namespace DebugBridge

variable {σ τ α β : Type} {rule : AnswerRule σ}

/-! ## What is asked and answered -/

/-- Whether a request only asks whether the session has ended. -/
def Request.isQuestion : Request → Bool
  | .isClosed => true
  | _ => false

/-- The answer to a command that has succeeded. -/
def Exchange.response? : Exchange → Option Response
  | ⟨.submit _ _, .ok response⟩ => some response
  | _ => none

/-- What was asked, apart from whether the session has ended. -/
def wanted (exchanges : List Exchange) : List Request :=
  (exchanges.map Exchange.request).filter fun request => !request.isQuestion

/-- The answers to commands that have succeeded. -/
def responses (exchanges : List Exchange) : List Response := exchanges.filterMap Exchange.response?

@[simp]
theorem wanted_append (exchanges more : List Exchange) :
    wanted (exchanges ++ more) = wanted exchanges ++ wanted more := by simp [wanted]

@[simp]
theorem responses_append (exchanges more : List Exchange) :
    responses (exchanges ++ more) = responses exchanges ++ responses more := by simp [responses]

/-- Whether an error says that a number is not known. -/
def DebugError.isUnknown : DebugError → Bool
  | .unknownReference _ => true
  | _ => false

namespace Response

/-- The frames in the order in which the engine tells of them. -/
def toldFrames (response : Response) : List EngineFrame :=
  (response.element.childrenNamed "stack").map EngineFrame.ofElement

/-- The properties that an answer tells of. -/
def found (response : Response) : List Property := response.properties.toOption.getD []

/-- The children of the property that an answer tells of. -/
def children (response : Response) : List Property :=
  (response.found.head?.map Property.children).getD []

end Response

/-- Frames in the order of their levels, and those of one level in the order in which they were
told. -/
structure ByLevel (told frames : List EngineFrame) : Prop where
  /-- They are the frames that were told. -/
  perm : frames.Perm told
  /-- Their levels do not decrease. -/
  sorted : frames.Pairwise fun frame later => frame.level ≤ later.level
  /-- Frames of one level keep their order. -/
  stable (level : Nat) : (frames.filter fun frame => frame.level == level) =
    told.filter fun frame => frame.level == level

theorem Response.byLevel (response : Response) : ByLevel response.toldFrames response.frames := by
  have transitive (a b c : EngineFrame) : decide (a.level ≤ b.level) = true →
      decide (b.level ≤ c.level) = true → decide (a.level ≤ c.level) = true := by
    intro first second
    exact decide_eq_true (Nat.le_trans (of_decide_eq_true first) (of_decide_eq_true second))
  have total (a b : EngineFrame) :
      (decide (a.level ≤ b.level) || decide (b.level ≤ a.level)) = true := by
    simpa using Nat.le_total a.level b.level
  have perm : response.frames.Perm response.toldFrames := List.mergeSort_perm _ _
  refine ⟨perm, (List.pairwise_mergeSort transitive total _).imp of_decide_eq_true,
    fun level => ?_⟩
  -- Those of one level are in order as they were told, so sorting does not move them.
  have kept : (response.toldFrames.filter fun frame => frame.level == level).Sublist
      response.frames := by
    refine List.sublist_mergeSort transitive total ?_ List.filter_sublist
    refine List.pairwise_of_forall_mem_list fun a first b second => ?_
    simp only [List.mem_filter, beq_iff_eq] at first second
    simp [first.2, second.2]
  have again := kept.filter fun frame => frame.level == level
  rw [List.filter_filter] at again
  simp only [Bool.and_self] at again
  exact (again.eq_of_length (perm.filter _).length_eq.symm).symm

/-! ## What is shown -/

/-- A frame as it is shown under a number. -/
def EngineFrame.shown (frame : EngineFrame) (id : Int64) : StackFrame where
  id
  name := if frame.location.isEmpty then Link.autoExecute else frame.location
  source := if frame.fileUri.isEmpty then none
    else some (SourceInfo.ofPath (Uri.toPath frame.fileUri))
  line := UInt32.ofNat frame.line
  column := 1

/-- A group of variables as it is shown under a number. -/
def VariableContext.shown (context : VariableContext) (reference : Int64) : Scope where
  name := context.name
  reference
  expensive := Text.equalIgnoringCase context.name "global"

/-- A property as it is shown under a number. -/
def Property.shown (property : Property) (reference : Int64) : Variable where
  name := property.name
  value := property.displayValue
  kind := some (property.className.getD property.kind)
  evaluateName := some property.fullName
  reference
  childCount := if property.hasChildren then some (UInt32.ofNat property.childCount) else none

/-- What is shown of a variable whose value was asked for. -/
def EvaluateResult.ofVariable (found : Variable) : EvaluateResult where
  result := found.value
  kind := found.kind
  reference := found.reference

/-! ## Numbers -/

/-- The numbers after those that were given. -/
def nextNumbers (taken count : Nat) : List Int64 :=
  (List.range' (taken + 1) count).map Int64.ofNat

@[simp]
theorem length_nextNumbers (taken count : Nat) : (nextNumbers taken count).length = count := by
  simp [nextNumbers]

theorem nextNumbers_succ (taken count : Nat) : nextNumbers taken (count + 1) =
    nextNumbers taken count ++ [Int64.ofInt ((taken + count : Nat) + 1)] := by
  have last : Int64.ofInt (((taken + count : Nat) : Int) + 1) = Int64.ofNat (taken + count + 1) :=
    Int64.ofInt_eq_ofNat
  rw [nextNumbers, List.range'_1_concat, List.map_append, last, Nat.add_right_comm]
  rfl

/-- Numbers for entries, some of which want none and get zero.  The others get numbers one after the
other, those up to `taken` having been given before. -/
structure Numbering (taken : Nat) (wants : List Bool) (numbers : List Nat) : Prop where
  /-- Zero stands where no number is wanted. -/
  zero : numbers.map (· == 0) = wants.map (!·)
  /-- The other numbers are the next ones. -/
  rising : numbers.filter (· != 0) = List.range' (taken + 1) (wants.count true)

theorem Numbering.length_eq {taken : Nat} {wants : List Bool} {numbers : List Nat}
    (numbering : Numbering taken wants numbers) : numbers.length = wants.length := by
  simpa using congrArg List.length numbering.zero

theorem Numbering.nil (taken : Nat) : Numbering taken [] [] := ⟨rfl, rfl⟩

theorem Numbering.concat_zero {taken : Nat} {wants : List Bool} {numbers : List Nat}
    (numbering : Numbering taken wants numbers) :
    Numbering taken (wants ++ [false]) (numbers ++ [0]) where
  zero := by simp [numbering.zero]
  rising := by simp [numbering.rising]

theorem Numbering.concat {taken : Nat} {wants : List Bool} {numbers : List Nat}
    (numbering : Numbering taken wants numbers) :
    Numbering taken (wants ++ [true]) (numbers ++ [taken + wants.count true + 1]) where
  zero := by simp [numbering.zero]
  rising := by
    rw [List.filter_append, numbering.rising, List.count_append]
    simp [List.range'_1_concat, Nat.add_right_comm]

/-- An entry has a number, the first one having number one. -/
def HasNumber (items : List α) (number : Int) (item : α) : Prop :=
  ∃ index : Nat, items[index]? = some item ∧ number = index + 1

theorem Handles.get?_eq_some_iff {table : Handles α} {number : Int} {item : α} :
    table.get? number = some item ↔ HasNumber table.items number item := by
  unfold get? HasNumber
  constructor
  · intro found
    split at found
    · exact ⟨_, found, by omega⟩
    · cases found
  · rintro ⟨index, found, rfl⟩
    rw [if_pos (by omega)]
    simpa using found

/-! ## The ledger -/

/-- What numbers were given for, in the order of the numbers. -/
structure Ledger where
  /-- The depths of frames. -/
  frames : List Nat
  /-- Groups of variables, and properties with children. -/
  scopes : List VariableScope
  deriving DecidableEq

namespace Ledger

/-- No numbers have been given. -/
def empty : Ledger := ⟨[], []⟩

/-- A ledger that is continued with the entries of another one. -/
def append (ledger more : Ledger) : Ledger :=
  ⟨ledger.frames ++ more.frames, ledger.scopes ++ more.scopes⟩

/-- The entries for the children of properties. -/
def ofProperties (depth : Nat) (contextId : Option Nat) (properties : List Property) : Ledger :=
  ⟨[], (properties.filter Property.hasChildren).map fun property =>
    .property depth contextId property.fullName⟩

end Ledger

/-- What numbers were given for, as far as is known of an engine. -/
def Link.ledger (link : Link) : Ledger := ⟨link.frameNumbers.items, link.scopeNumbers.items⟩

/-- What an engine is asked about a script that has stopped. -/
inductive Query where
  /-- The stack. -/
  | stack
  /-- The groups of variables at a depth. -/
  | contexts (depth : Nat)
  /-- The variables in something. -/
  | variables (scope : VariableScope)
  /-- The value of an expression at a depth. -/
  | expression (depth : Nat) (text : String)
  /-- Names of variables at a depth. -/
  | names (depth : Nat)

/-- What a debugger gives back of an answer. -/
inductive Reply where
  /-- Nothing with numbers in it. -/
  | nothing
  /-- Frames. -/
  | frames (shown : List StackFrame)
  /-- Groups of variables. -/
  | scopes (shown : List Scope)
  /-- Variables. -/
  | variables (shown : List Variable)
  /-- A value. -/
  | value (result : EvaluateResult)

namespace Query

/-- The request for a command. -/
def sent (command : Command) : Request := .submit command none

/-- The commands that ask for names. -/
def namingCommands : List String := ["context_names", "context_get", "property_get"]

/-- The requests by which an engine is asked something. -/
def Asks : Query → List Request → Prop
  | .stack, requests => requests = [sent (.named "stack_get")]
  | .contexts depth, requests =>
      requests = [sent ((Command.named "context_names").argNat 'd' depth)]
  | .variables (.context depth contextId), requests =>
    requests = [sent (((Command.named "context_get").argNat 'd' depth).argNat 'c' contextId)]
  | .variables (.property depth contextId fullName), requests => ∃ pages : List Nat,
    requests = (0 :: pages).map fun page => sent (Link.pageCommand depth contextId fullName page)
  | .expression depth text, requests =>
    requests = [sent (((Command.named "property_get").argNat 'd' depth).arg 'n' text)]
  | .names depth, requests => ∀ request ∈ requests, ∃ command,
    request = sent command ∧ command.name ∈ namingCommands ∧
      command.get? 'd' = some (toString depth)

/-- The properties that the answers tell of. -/
def properties : Query → List Response → List Property
  | .variables (.context _ _), responses => responses.flatMap Response.found
  | .variables (.property _ _ _), responses => responses.flatMap Response.children
  | .expression _ _, responses => responses.flatMap fun response => response.found.head?.toList
  | _, _ => []

/-- What is given numbers after the answers. -/
def entries (query : Query) (responses : List Response) : Ledger :=
  match query with
  | .stack => ⟨responses.flatMap fun response => response.frames.map EngineFrame.level, []⟩
  | .contexts depth => ⟨[], responses.flatMap fun response =>
      response.contexts.map fun context => .context depth context.id⟩
  | .variables (.context depth contextId) =>
    .ofProperties depth (some contextId) (query.properties responses)
  | .variables (.property depth contextId _) =>
    .ofProperties depth contextId (query.properties responses)
  | .expression depth _ => .ofProperties depth none (query.properties responses)
  | .names _ => .empty

/-- What is given back for the answers, with numbers for what has none in the ledger. -/
inductive Gives (ledger : Ledger) : Query → List Response → Reply → Prop
  /-- Each frame gets a number, in the order of the levels. -/
  | frames {response : Response} (ordered : ByLevel response.toldFrames response.frames) :
      Gives ledger .stack [response] (.frames (List.zipWith EngineFrame.shown response.frames
        (nextNumbers ledger.frames.length response.frames.length)))
  /-- Each group gets a number. -/
  | scopes {depth : Nat} {response : Response} :
      Gives ledger (.contexts depth) [response] (.scopes (List.zipWith VariableContext.shown
        response.contexts (nextNumbers ledger.scopes.length response.contexts.length)))
  /-- A variable gets a number if it has children. -/
  | variables {scope : VariableScope} {responses : List Response} {numbers : List Nat}
      (numbering : Numbering ledger.scopes.length
        (((Query.variables scope).properties responses).map Property.hasChildren) numbers) :
      Gives ledger (.variables scope) responses (.variables (List.zipWith Property.shown
        ((Query.variables scope).properties responses) (numbers.map Int64.ofNat)))
  /-- So does a value. -/
  | value {depth : Nat} {text : String} {response : Response} {property : Property} {number : Nat}
      (found : response.found.head? = some property)
      (numbering : Numbering ledger.scopes.length [property.hasChildren] [number]) :
      Gives ledger (.expression depth text) [response]
        (.value (.ofVariable (property.shown (Int64.ofNat number))))
  /-- Names get none. -/
  | names {depth : Nat} {responses : List Response} : Gives ledger (.names depth) responses .nothing

/-- What comes of asking an engine something, and the ledger afterwards. -/
inductive Answered (ledger : Ledger) (query : Query) (exchanges : List Exchange) :
    Except DebugError Reply → Ledger → Prop
  /-- It is asked, and something fails. -/
  | failed {error : DebugError} (asks : query.Asks (wanted exchanges))
      (other : error.isUnknown = false) : Answered ledger query exchanges (.error error) ledger
  /-- It is asked, and numbers are given for what it answers. -/
  | given {reply : Reply} (asks : query.Asks (wanted exchanges))
      (gives : query.Gives ledger (responses exchanges) reply) :
      Answered ledger query exchanges (.ok reply)
        (ledger.append (query.entries (responses exchanges)))

end Query

/-! ## Giving numbers -/

namespace Operation

/-- What is done with entries one after the other, where nothing is asked and nothing fails. -/
theorem ensures_mapM {done : List α → List β → τ → Prop} {body : α → Operation τ β} {world : σ}
    (step : ∀ entries values state entry, done entries values state →
      (body entry).Ensures rule state world fun result state last =>
        ∃ value, result = .ok value ∧ last = world ∧
          done (entries ++ [entry]) (values ++ [value]) state)
    {state : τ} (start : done [] [] state) (entries : List α) :
    (entries.mapM body).Ensures rule state world fun result state last =>
      ∃ values, result = .ok values ∧ last = world ∧ done entries values state := by
  have all : ∀ (before : List α) (values : List β) (state : τ), done before values.reverse state →
      (List.mapM.loop body entries values).Ensures rule state world fun result state last =>
        ∃ values, result = .ok values ∧ last = world ∧ done (before ++ entries) values state := by
    induction entries with
    | nil =>
        intro before values state holds
        refine (ensures_pure _).2 ⟨values.reverse, rfl, rfl, ?_⟩
        rwa [List.append_nil]
    | cons entry rest ih =>
        intro before values state holds
        refine (ensures_bind _ _).2 ((step before values.reverse state entry holds).mono ?_)
        rintro _ state _ ⟨value, rfl, rfl, holds⟩
        rw [← List.reverse_cons] at holds
        refine (ih (before ++ [entry]) (value :: values) state holds).mono ?_
        rintro _ state _ ⟨all, rfl, rfl, holds⟩
        rw [List.append_assoc, List.singleton_append] at holds
        exact ⟨all, rfl, rfl, holds⟩
  exact all [] [] state start

end Operation

namespace Link

open Operation

variable {link : Link} {world : σ}

/-- Frames have been given the numbers that follow those in a ledger. -/
structure FramesShown (ledger : Ledger) (frames : List EngineFrame) (shown : List StackFrame)
    (after : Link) : Prop where
  shown : shown =
    List.zipWith EngineFrame.shown frames (nextNumbers ledger.frames.length frames.length)
  ledger : after.ledger = ledger.append ⟨frames.map EngineFrame.level, []⟩

theorem describeFrames_spec (frames : List EngineFrame) :
    (frames.mapM describeFrame).Ensures rule link world fun result after last =>
      ∃ shown, result = .ok shown ∧ last = world ∧
        FramesShown link.ledger frames shown after := by
  have start : FramesShown link.ledger [] [] link := ⟨rfl, by simp [Ledger.append]⟩
  refine ensures_mapM ?_ start frames
  intro frames shown after frame ⟨before, same⟩
  refine (ensures_bind _ _).2 (ensures_get.2 ((ensures_bind _ _).2 ((ensures_set _).2
    ((ensures_pure _).2 ⟨_, rfl, rfl, ?_, ?_⟩))))
  · have taken : link.ledger.frames.length + frames.length = after.frameNumbers.items.length := by
      have lengths := congrArg (fun ledger => ledger.frames.length) same
      simpa [Link.ledger, Ledger.append] using lengths.symm
    rw [List.length_append, List.length_singleton, nextNumbers_succ, taken,
      List.zipWith_append (length_nextNumbers _ _).symm, ← before]
    rfl
  · have frameItems := congrArg Ledger.frames same
    have scopeItems := congrArg Ledger.scopes same
    simp only [Link.ledger, Ledger.append] at frameItems scopeItems
    simp [Link.ledger, Ledger.append, frameItems, scopeItems]

/-- One more number for something with variables in it. -/
theorem referTo_spec (scope : VariableScope) :
    (referTo scope).Ensures rule link world fun result after last =>
      result = .ok ((link.ledger.scopes.length : Int) + 1) ∧ last = world ∧
        after.ledger = link.ledger.append ⟨[], [scope]⟩ := by
  refine (ensures_bind _ _).2 (ensures_get.2 ((ensures_bind _ _).2 ((ensures_set _).2
    ((ensures_pure _).2 ⟨rfl, rfl, ?_⟩))))
  simp [ledger, Ledger.append]

/-- Groups of variables at a depth have been given the numbers that follow those in a ledger. -/
structure ContextsShown (ledger : Ledger) (depth : Nat) (contexts : List VariableContext)
    (shown : List Scope) (after : Link) : Prop where
  shown : shown =
    List.zipWith VariableContext.shown contexts (nextNumbers ledger.scopes.length contexts.length)
  ledger : after.ledger = ledger.append
    ⟨[], contexts.map fun context => .context depth context.id⟩

theorem describeContexts_spec (depth : Nat) (contexts : List VariableContext) :
    (contexts.mapM (describeContext depth)).Ensures rule link world fun result after last =>
      ∃ shown, result = .ok shown ∧ last = world ∧
        ContextsShown link.ledger depth contexts shown after := by
  have start : ContextsShown link.ledger depth [] [] link := ⟨rfl, by simp [Ledger.append]⟩
  refine ensures_mapM ?_ start contexts
  intro contexts shown middle context ⟨before, same⟩
  refine (ensures_bind _ _).2 ((referTo_spec _).mono ?_)
  rintro _ after _ ⟨rfl, rfl, later⟩
  refine (ensures_pure _).2 ⟨_, rfl, rfl, ?_, ?_⟩
  · have taken : link.ledger.scopes.length + contexts.length = middle.ledger.scopes.length := by
      simp [same, Ledger.append]
    rw [List.length_append, List.length_singleton, nextNumbers_succ, taken,
      List.zipWith_append (length_nextNumbers _ _).symm, ← before]
    rfl
  · rw [later, same]
    simp [Ledger.append]

/-- Those properties that have children have been given the numbers that follow those in a
ledger. -/
structure PropertiesShown (ledger : Ledger) (depth : Nat) (contextId : Option Nat)
    (properties : List Property) (shown : List Variable) (after : Link) : Prop where
  shown : ∃ numbers,
    Numbering ledger.scopes.length (properties.map Property.hasChildren) numbers ∧
      shown = List.zipWith Property.shown properties (numbers.map Int64.ofNat)
  ledger : after.ledger = ledger.append (.ofProperties depth contextId properties)

/-- One more property is shown. -/
theorem describeProperty_spec {ledger : Ledger} {depth : Nat} {contextId : Option Nat}
    {properties : List Property} {shown : List Variable}
    (before : PropertiesShown ledger depth contextId properties shown link) (property : Property) :
    (describeProperty depth contextId property).Ensures rule link world fun result after last =>
      ∃ found, result = .ok found ∧ last = world ∧ PropertiesShown ledger depth contextId
        (properties ++ [property]) (shown ++ [found]) after := by
  obtain ⟨⟨numbers, numbering, rfl⟩, same⟩ := before
  have more (number : Nat) : List.zipWith Property.shown (properties ++ [property])
      ((numbers ++ [number]).map Int64.ofNat) =
        List.zipWith Property.shown properties (numbers.map Int64.ofNat) ++
          [property.shown (Int64.ofNat number)] := by
    rw [List.map_append, List.zipWith_append]
    · rfl
    · simpa using numbering.length_eq.symm
  unfold describeProperty
  cases wants : property.hasChildren with
  | false =>
      refine (ensures_bind _ _).2 ((ensures_pure _).2 ((ensures_pure _).2
        ⟨_, rfl, rfl, ⟨numbers ++ [0], ?_, ?_⟩, ?_⟩))
      · rw [List.map_append, List.map_singleton, wants]
        exact numbering.concat_zero
      · rw [more, Property.shown, wants]
        rfl
      · rw [same]
        simp [Ledger.append, Ledger.ofProperties, wants]
  | true =>
      refine (ensures_bind _ _).2 ((referTo_spec _).mono ?_)
      rintro _ after _ ⟨rfl, rfl, later⟩
      have taken : link.ledger.scopes.length =
          ledger.scopes.length + (properties.map Property.hasChildren).count true := by
        rw [same]
        simp [Ledger.append, Ledger.ofProperties, List.count_eq_countP,
          List.countP_eq_length_filter, List.filter_map, Function.comp_def]
      refine (ensures_pure _).2 ⟨_, rfl, rfl,
        ⟨numbers ++ [link.ledger.scopes.length + 1], ?_, ?_⟩, ?_⟩
      · rw [List.map_append, List.map_singleton, wants, taken]
        exact numbering.concat
      · rw [more, Property.shown, wants]
        rfl
      · rw [later, same]
        simp [Ledger.append, Ledger.ofProperties, wants]

theorem describeProperties_spec (depth : Nat) (contextId : Option Nat)
    (properties : List Property) :
    (properties.mapM (describeProperty depth contextId)).Ensures rule link world
      fun result after last => ∃ shown, result = .ok shown ∧ last = world ∧
        PropertiesShown link.ledger depth contextId properties shown after := by
  have start : PropertiesShown link.ledger depth contextId [] [] link :=
    ⟨⟨[], .nil _, rfl⟩, by simp [Ledger.append, Ledger.ofProperties]⟩
  refine ensures_mapM ?_ start properties
  exact fun _ _ _ property before => describeProperty_spec before property

end Link

end DebugBridge
