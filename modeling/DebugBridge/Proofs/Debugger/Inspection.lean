import DebugBridge.Proofs.Debugger.Numbering

/-!
# What becomes of a number that is used

Each way to look at a script that has stopped is traced to what the engine is asked: a number that
is in the ledger leads to the depth, the group and the name that it was given for, and nothing is
asked for a number that is not.
-/

namespace DebugBridge

variable {σ α : Type} {rule : AnswerRule σ}

/-- Nothing has been asked but whether the session has ended. -/
structure Unasked (exchanges : List Exchange) : Prop where
  wanted : wanted exchanges = []
  responses : responses exchanges = []

theorem unasked_nil : Unasked [] := ⟨rfl, rfl⟩

theorem unasked_of_asked {start last : σ × List Exchange} (unasked : Unasked start.2)
    (where_ : last = start ∨ last = (rule.recorded .isClosed start).2) : Unasked last.2 := by
  rcases where_ with rfl | rfl
  · exact unasked
  · constructor
    · rw [AnswerRule.recorded, wanted_append, unasked.wanted]
      rfl
    · rw [AnswerRule.recorded, responses_append, unasked.responses]
      rfl

namespace Link

open Operation

variable {link : Link} {world : σ} {exchanges : List Exchange}

/-! ## Single commands -/

/-- What an operation leaves that sends one command and reads the answer in some way. -/
structure Told (command : Command) (reads : Response → α → Prop) (exchanges : List Exchange)
    (link after : Link) (result : Except DebugError α) (last : List Exchange) : Prop where
  link : after = link
  wanted : wanted last = wanted exchanges ++ [Query.sent command]
  responses (value : α) (ok : result = .ok value) :
    ∃ response, reads response value ∧ responses last = responses exchanges ++ [response]
  failed (error : DebugError) (failed : result = .error error) : error.isUnknown = false

theorem told_of_error {command : Command} {reads : Response → α → Prop} {after : Link}
    {error : DebugError} {last : List Exchange} (same : after = link)
    (asked : wanted last = wanted exchanges ++ [Query.sent command])
    (other : error.isUnknown = false) :
    Told command reads exchanges link after (.error error) last where
  link := same
  wanted := asked
  responses := nofun
  failed _ failed := by
    cases failed
    exact other

theorem command_told (command : Command) :
    (Operation.command command).Leaves rule.recorded link (world, exchanges)
      fun result after last => Told command Eq exchanges link after result last.2 := by
  refine Leaves.bind ((attempt_recorded command link world exchanges).leaves.mono ?_)
  rintro _ after last ⟨rfl, answer, rfl, told⟩
  have asked : wanted last.2 = wanted exchanges ++ [Query.sent command] := by
    rw [told, wanted_append]
    rfl
  rcases answer with (error | response)
  · cases error with
    | engine error => exact ((ensures_throw _).2 (told_of_error rfl asked rfl)).leaves
    | _ => exact told_of_error rfl asked rfl
  · refine ((ensures_pure _).2 ⟨rfl, asked, fun value ok => ?_, nofun⟩).leaves
    cases ok
    exact ⟨response, rfl, by rw [told, responses_append]; rfl⟩

theorem contexts_told (depth : Nat) :
    (contexts depth).Leaves rule.recorded link (world, exchanges) fun result after last =>
      Told ((Command.named "context_names").argNat 'd' depth)
        (fun response found => response.contexts = found) exchanges link after result last.2 := by
  refine Leaves.bind ((command_told _).mono ?_)
  rintro (error | response) after last told
  · exact told_of_error told.link told.wanted (told.failed _ rfl)
  · obtain ⟨_, rfl, answers⟩ := told.responses _ rfl
    refine ((ensures_pure _).2 ⟨told.link, told.wanted, fun value ok => ?_, nofun⟩).leaves
    cases ok
    exact ⟨_, rfl, answers⟩

theorem properties_told (command : Command) :
    (properties command).Leaves rule.recorded link (world, exchanges) fun result after last =>
      Told command (fun response found => response.found = found) exchanges link after result
        last.2 := by
  refine Leaves.bind ((command_told command).mono ?_)
  rintro (error | response) after last told
  · exact told_of_error told.link told.wanted (told.failed _ rfl)
  · obtain ⟨response, rfl, answers⟩ := told.responses _ rfl
    dsimp only
    cases read : response.properties with
    | error fault => exact ((ensures_throw _).2 (told_of_error told.link told.wanted rfl)).leaves
    | ok properties =>
        refine ((ensures_pure _).2 ⟨told.link, told.wanted, fun value ok => ?_, nofun⟩).leaves
        cases ok
        exact ⟨response, by rw [Response.found, read]; rfl, answers⟩

/-- What is made of an answer. -/
inductive Concludes (query : Query) (link : Link) (responses : List Response) :
    Except DebugError Reply → Link → Prop
  | failed {error : DebugError} {after : Link} (other : error.isUnknown = false)
      (same : after.ledger = link.ledger) : Concludes query link responses (.error error) after
  | given {reply : Reply} {after : Link} (gives : query.Gives link.ledger responses reply)
      (more : after.ledger = link.ledger.append (query.entries responses)) :
      Concludes query link responses (.ok reply) after

theorem Concludes.answered {query : Query} {result : Except DebugError Reply} {after : Link}
    {answers : List Response} {last : List Exchange}
    (concludes : Concludes query link answers result after) (asks : query.Asks (wanted last))
    (same : responses last = answers) :
    query.Answered link.ledger last result after.ledger := by
  cases concludes with
  | failed other unchanged =>
      rw [unchanged]
      exact .failed asks other
  | given gives more =>
      rw [more, ← same]
      exact .given asks (same ▸ gives)

/-- An operation that goes on with what it has read in the answer to one command. -/
theorem answered_of_told {β : Type} {query : Query} {command : Command}
    {reads : Response → β → Prop} {operation : LinkOperation β} {next : β → LinkOperation α}
    {reply : α → Reply} (unasked : Unasked exchanges) (asks : query.Asks [Query.sent command])
    (told : operation.Leaves rule.recorded link (world, exchanges) fun result after last =>
      Told command reads exchanges link after result last.2)
    (concludes : ∀ response value last, reads response value →
      (next value).Leaves rule.recorded link last fun result after final =>
        final = last ∧ Concludes query link [response] (result.map reply) after) :
    (operation >>= next).Leaves rule.recorded link (world, exchanges) fun result after last =>
      query.Answered link.ledger last.2 (result.map reply) after.ledger := by
  refine Leaves.bind (told.mono ?_)
  rintro (error | value) after last told
  all_goals
    have asked : query.Asks (wanted last.2) := by
      rw [told.wanted, unasked.wanted]
      exact asks
    obtain rfl := told.link
  · exact .failed asked (told.failed _ rfl)
  · obtain ⟨response, read, answers⟩ := told.responses _ rfl
    rw [unasked.responses, List.nil_append] at answers
    refine (concludes response value last read).mono ?_
    rintro result after _ ⟨rfl, concludes⟩
    exact concludes.answered asked answers

section Unasked

variable (unasked : Unasked exchanges)
include unasked

theorem stackTrace_answered :
    stackTrace.Leaves rule.recorded link (world, exchanges) fun result after last =>
      Query.stack.Answered link.ledger last.2 (result.map .frames) after.ledger := by
  refine answered_of_told unasked rfl (command_told _) ?_
  rintro response _ last rfl
  refine (describeFrames_spec response.frames).leaves.mono ?_
  rintro _ after _ ⟨_, rfl, rfl, rfl, same⟩
  exact ⟨rfl, .given (.frames response.byLevel) (by simp [Query.entries, same])⟩

/-- Groups of variables at a depth. -/
theorem contexts_answered (depth : Nat) :
    Leaves rule.recorded (do
      let found ← contexts depth
      found.mapM (describeContext depth) : LinkOperation (List Scope)) link (world, exchanges)
      fun result after last =>
        (Query.contexts depth).Answered link.ledger last.2 (result.map .scopes) after.ledger := by
  refine answered_of_told unasked rfl (contexts_told depth) ?_
  rintro response _ last rfl
  refine (describeContexts_spec depth response.contexts).leaves.mono ?_
  rintro _ after _ ⟨_, rfl, rfl, rfl, same⟩
  exact ⟨rfl, .given .scopes (by simp [Query.entries, same])⟩

/-- The variables of a group. -/
theorem contextVariables_answered (depth contextId : Nat) :
    Leaves rule.recorded (do
      let found ← contextVariables depth contextId
      found.mapM (describeProperty depth (some contextId)) : LinkOperation (List Variable))
      link (world, exchanges) fun result after last =>
        (Query.variables (.context depth contextId)).Answered link.ledger last.2
          (result.map .variables) after.ledger := by
  refine answered_of_told unasked rfl (properties_told _) ?_
  rintro response _ last rfl
  refine (describeProperties_spec depth (some contextId) response.found).leaves.mono ?_
  rintro _ after _ ⟨_, rfl, rfl, ⟨numbers, numbering, rfl⟩, same⟩
  have found : response.found =
      (Query.variables (.context depth contextId)).properties [response] := by
    simp [Query.properties]
  rw [found] at numbering same ⊢
  exact ⟨rfl, .given (.variables numbering) same⟩

/-- The value of an expression at a depth. -/
theorem expression_answered (depth : Nat) (text : String) :
    Leaves rule.recorded (do
      match
        (← properties (((Command.named "property_get").argNat 'd' depth).arg 'n' text)).head? with
      | none => throw (.unresolved ("\x60" ++ text ++ "\x60"))
      | some property =>
        let found ← describeProperty depth none property
        return { result := found.value, kind := found.kind, reference := found.reference } :
      LinkOperation EvaluateResult) link (world, exchanges) fun result after last =>
        (Query.expression depth text).Answered link.ledger last.2 (result.map .value)
          after.ledger := by
  refine answered_of_told unasked rfl (properties_told _) ?_
  rintro response _ last rfl
  cases first : response.found.head? with
  | none => exact ((ensures_throw _).2 ⟨rfl, .failed rfl rfl⟩).leaves
  | some property =>
      have start : PropertiesShown link.ledger depth none [] [] link :=
        ⟨⟨[], .nil _, rfl⟩, by simp [Ledger.append, Ledger.ofProperties]⟩
      refine ((ensures_bind _ _).2 ((describeProperty_spec start property).mono ?_)).leaves
      rintro _ after _ ⟨shown, rfl, rfl, ⟨numbers, numbering, found⟩, same⟩
      rw [List.nil_append] at numbering found same
      obtain ⟨number, rfl⟩ : ∃ number, numbers = [number] :=
        List.length_eq_one_iff.1 numbering.length_eq
      obtain rfl : shown = property.shown (Int64.ofNat number) := by simpa using found
      refine (ensures_pure _).2 ⟨rfl, .given (.value first numbering) ?_⟩
      rw [same, Query.entries, Query.properties]
      simp [first]

end Unasked

/-! ## Pages -/

/-- What is left by asking for the children of a property page by page. -/
structure Paged (command : Nat → Command) (link after : Link)
    (result : Except DebugError (List Property)) (last : List Exchange) : Prop where
  link : after = link
  wanted : ∃ pages : List Nat,
    wanted last = (0 :: pages).map fun page => Query.sent (command page)
  children (found : List Property) (ok : result = .ok found) :
    found = (responses last).flatMap Response.children
  failed (error : DebugError) (failed : result = .error error) : error.isUnknown = false

/-- Further pages continue those that were asked for. -/
theorem addPages_paged (command : Nat → Command) (total pages : Nat) {page : Nat}
    {children : List Property} (asked : ∃ pages : List Nat,
      wanted exchanges = (0 :: pages).map fun page => Query.sent (command page))
    (found : children = (responses exchanges).flatMap Response.children) :
    (addPages command total pages page children).Leaves rule.recorded link (world, exchanges)
      fun result after last => Paged command link after result last.2 := by
  induction pages generalizing page children link world exchanges with
  | zero =>
      refine ((ensures_pure _).2 ⟨rfl, asked, fun _ ok => ?_, nofun⟩).leaves
      cases ok
      exact found
  | succ pages ih =>
      have enough : Paged command link link (.ok children) exchanges := by
        refine ⟨rfl, asked, fun _ ok => ?_, nofun⟩
        cases ok
        exact found
      unfold addPages
      split
      · exact ((ensures_pure _).2 enough).leaves
      refine Leaves.bind ((properties_told _).mono ?_)
      rintro result after ⟨afterWorld, last⟩ told
      have later : ∃ pages : List Nat,
          wanted last = (0 :: pages).map fun page => Query.sent (command page) := by
        obtain ⟨before, same⟩ := asked
        exact ⟨before ++ [pageAfter page], by rw [told.wanted, same]; simp⟩
      obtain rfl := told.link
      rcases result with (error | more)
      · refine ⟨rfl, later, fun found ok => ?_, fun _ same => told.failed _ same⟩
        cases ok
      obtain ⟨response, rfl, answers⟩ := told.responses _ rfl
      have all : children ++ response.children = (responses last).flatMap Response.children := by
        rw [found, answers]
        simp
      have goesOn (more : List Property) (same : more = response.children) :
          Leaves rule.recorded (if more.isEmpty = true then return children
            else addPages command total pages (pageAfter page) (children ++ more) :
              LinkOperation (List Property)) after (afterWorld, last)
            fun result later last => Paged command after later result last.2 := by
        subst same
        split
        · next nothing =>
            refine ((ensures_pure _).2 ⟨rfl, later, fun _ ok => ?_, nofun⟩).leaves
            cases ok
            rw [← all, List.isEmpty_iff.1 nothing, List.append_nil]
        · exact ih later all
      dsimp only
      cases first : response.found.head? with
      | none => exact goesOn [] (by rw [Response.children, first]; rfl)
      | some property => exact goesOn property.children (by rw [Response.children, first]; rfl)

theorem propertyChildren_paged (unasked : Unasked exchanges) (depth : Nat)
    (contextId : Option Nat) (fullName : String) :
    (propertyChildren depth contextId fullName).Leaves rule.recorded link (world, exchanges)
      fun result after last =>
        Paged (pageCommand depth contextId fullName) link after result last.2 := by
  refine Leaves.bind ((properties_told _).mono ?_)
  rintro result after ⟨afterWorld, last⟩ told
  have asked : ∃ pages : List Nat, wanted last =
      (0 :: pages).map fun page => Query.sent (pageCommand depth contextId fullName page) :=
    ⟨[], by rw [told.wanted, unasked.wanted]; rfl⟩
  obtain rfl := told.link
  rcases result with (error | found)
  · exact ⟨rfl, asked, nofun, fun _ same => told.failed _ same⟩
  obtain ⟨response, rfl, answers⟩ := told.responses _ rfl
  rw [unasked.responses, List.nil_append] at answers
  have children : response.children = (responses last).flatMap Response.children := by
    rw [answers]
    simp
  dsimp only
  cases first : response.found.head? with
  | none =>
      refine ((ensures_pure _).2 ⟨rfl, asked, fun _ ok => ?_, nofun⟩).leaves
      cases ok
      rw [← children, Response.children, first]
      rfl
  | some property =>
      refine addPages_paged _ _ _ asked ?_
      rw [← children, Response.children, first]
      rfl

/-- The children of a property. -/
theorem propertyVariables_answered (unasked : Unasked exchanges) (depth : Nat)
    (contextId : Option Nat) (fullName : String) :
    Leaves rule.recorded (do
      let found ← propertyChildren depth contextId fullName
      found.mapM (describeProperty depth contextId) : LinkOperation (List Variable))
      link (world, exchanges) fun result after last =>
        (Query.variables (.property depth contextId fullName)).Answered link.ledger last.2
          (result.map .variables) after.ledger := by
  refine Leaves.bind ((propertyChildren_paged unasked depth contextId fullName).mono ?_)
  rintro (error | found) after last paged
  · rw [paged.link]
    exact .failed paged.wanted (paged.failed _ rfl)
  · obtain rfl := paged.link
    obtain rfl := paged.children _ rfl
    refine (describeProperties_spec depth contextId _).leaves.mono ?_
    rintro _ later _ ⟨_, rfl, rfl, ⟨numbers, numbering, rfl⟩, same⟩
    rw [same]
    exact .given paged.wanted (.variables numbering)

/-! ## Names -/

/-- An operation asks only for names at a depth, and changes nothing. -/
def Names (rule : AnswerRule σ) (depth : Nat) (operation : LinkOperation α) : Prop :=
  ∀ (link : Link) (world : σ) (exchanges : List Exchange),
    (Query.names depth).Asks (wanted exchanges) →
      operation.Leaves rule.recorded link (world, exchanges) fun result after last =>
        after = link ∧ (Query.names depth).Asks (wanted last.2) ∧
          ∀ error, result = .error error → error.isUnknown = false

theorem Names.pure (depth : Nat) (value : α) : Names rule depth (pure value : LinkOperation α) :=
  fun _ _ _ asks => ((ensures_pure _).2 ⟨rfl, asks, nofun⟩).leaves

theorem Names.bind {β : Type} {depth : Nat} {operation : LinkOperation α}
    {next : α → LinkOperation β} (first : Names rule depth operation)
    (rest : ∀ value, Names rule depth (next value)) : Names rule depth (operation >>= next) := by
  intro link world exchanges asks
  refine Leaves.bind ((first link world exchanges asks).mono ?_)
  rintro (error | value) after ⟨afterWorld, last⟩ ⟨rfl, later, failed⟩
  · exact ⟨rfl, later, fun _ same => failed _ (by cases same; rfl)⟩
  · exact rest value after afterWorld last later

/-- What is told in answer to a command that asks for names at a depth. -/
theorem names_of_told {depth : Nat} {command : Command} {operation : LinkOperation α}
    {reads : Response → α → Prop} (names : command.name ∈ Query.namingCommands)
    (at_ : command.get? 'd' = some (toString depth))
    (told : ∀ (link : Link) (world : σ) (exchanges : List Exchange),
      operation.Leaves rule.recorded link (world, exchanges) fun result after last =>
        Told command reads exchanges link after result last.2) : Names rule depth operation := by
  intro link world exchanges asks
  refine (told link world exchanges).mono ?_
  rintro result after last told
  refine ⟨told.link, ?_, told.failed⟩
  rw [told.wanted]
  exact List.forall_mem_append.2
    ⟨asks, List.forall_mem_singleton.2 ⟨command, rfl, names, at_⟩⟩

theorem names_contexts (depth : Nat) : Names rule depth (contexts depth) :=
  names_of_told (show "context_names" ∈ Query.namingCommands by decide) rfl
    fun _ _ _ => contexts_told depth

theorem names_propertyChildren (depth : Nat) (fullName : String) :
    Names rule depth (propertyChildren depth none fullName) := by
  have page (page : Nat) :
      Names rule depth (Link.properties (pageCommand depth none fullName page)) :=
    names_of_told (show "property_get" ∈ Query.namingCommands by decide) rfl
      fun _ _ _ => properties_told _
  have more (total pages : Nat) : ∀ page children,
      Names rule depth (addPages (pageCommand depth none fullName) total pages page children) := by
    induction pages with
    | zero => exact fun _ _ => .pure _ _
    | succ pages ih =>
        intro number children
        unfold addPages
        split
        · exact .pure _ _
        · refine (page _).bind fun found => ?_
          dsimp only
          split <;> split
          · exact .pure _ _
          · exact ih _ _
          · exact .pure _ _
          · exact ih _ _
  refine (page 0).bind fun found => ?_
  split
  · exact .pure _ _
  · exact more _ _ _ _

theorem names_memberNames (depth : Nat) (expression : String) :
    Names rule depth (memberNames depth expression) := by
  intro link world exchanges asks
  refine Leaves.bind (Leaves.tryCatch
    (((names_propertyChildren depth expression).bind fun found => .pure _ _)
      link world exchanges asks |>.mono ?_))
  rintro (error | found) after last ⟨rfl, later, failed⟩
  · dsimp only
    split
    · refine ((ensures_pure _).2 ?_).leaves
      exact ((ensures_pure _).2 ⟨rfl, later, nofun⟩).leaves
    · refine Leaves.bind ((ensures_throw _).2 ?_).leaves
      exact ⟨rfl, later, fun _ same => failed _ (by cases same; rfl)⟩
  · cases found <;> exact ((ensures_pure _).2 ⟨rfl, later, nofun⟩).leaves

theorem names_variableNames (depth : Nat) (found : List VariableContext) :
    Names rule depth (variableNames depth found) := by
  induction found with
  | nil => exact .pure _ _
  | cons context rest ih =>
      have first : Names rule depth (contextVariables depth context.id) :=
        names_of_told (show "context_get" ∈ Query.namingCommands by decide) rfl
          fun _ _ _ => properties_told _
      exact first.bind fun _ => ih.bind fun _ => .pure _ _

/-- Names that complete a text. -/
theorem names_answered {operation : LinkOperation α} {depth : Nat}
    (names : Names rule depth operation) (unasked : Unasked exchanges) :
    operation.Leaves rule.recorded link (world, exchanges) fun result after last =>
      (Query.names depth).Answered link.ledger last.2 (result.map fun _ => .nothing)
        after.ledger := by
  have asks : (Query.names depth).Asks (wanted exchanges) := by
    rw [unasked.wanted]
    exact nofun
  refine (names link world exchanges asks).mono ?_
  rintro (error | value) after last ⟨rfl, later, failed⟩
  · exact .failed later (failed _ rfl)
  · have unchanged : after.ledger.append ((Query.names depth).entries (responses last.2)) =
        after.ledger := by simp [Ledger.append, Query.entries, Ledger.empty]
    have given : (Query.names depth).Answered after.ledger last.2 (.ok .nothing)
        (after.ledger.append ((Query.names depth).entries (responses last.2))) :=
      .given later .names
    rwa [unchanged] at given

end Link

end DebugBridge
