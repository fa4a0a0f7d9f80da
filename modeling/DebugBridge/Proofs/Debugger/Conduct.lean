import DebugBridge.Debugger.Requests
import DebugBridge.Proofs.Debugger.Agreement
import DebugBridge.Proofs.Debugger.Exchange

/-!
# How a talk is conducted

A talk obeys a rule if each request that it makes is allowed where it is made, whatever has been
answered before.  This holds of a talk that never ends as well as of one that does, so it can be
relied on while other things happen at its side.  Looking at a script, letting it go on and dealing
with its breakpoints takes plain requests only: commands, and questions whether the session has
ended, besides messages and warnings.
-/

namespace DebugBridge

variable {σ τ υ α β π : Type}

/-- A rule for talks: which requests are allowed at a point, and the point after each answer. -/
structure Conduct (π : Type) where
  /-- Whether a request is allowed. -/
  allows : π → Request → Prop
  /-- The point after a request was answered. -/
  next : π → Exchange → π
  /-- Whether a talk may go on forever. -/
  lasts : π → Prop := fun _ => True

namespace Talk

/-- Whatever is answered, the talk makes requests only where they are allowed, and if it ends,
something holds of its result and of the point that is reached. -/
def Obeys (conduct : Conduct π) (post : α → π → Prop) : Talk α → π → Prop
  | .done result, point => post result point
  | .call request rest, point =>
    conduct.allows point request ∧
      ∀ answer, (rest answer).Obeys conduct post (conduct.next point ⟨request, answer⟩)
  | .stuck, point => conduct.lasts point

variable {conduct : Conduct π} {talk : Talk α} {point : π}

theorem Obeys.mono {post post' : α → π → Prop} (obeys : talk.Obeys conduct post point)
    (weaker : ∀ result point, post result point → post' result point) :
    talk.Obeys conduct post' point := by
  induction talk generalizing point with
  | done result => exact weaker result point obeys
  | call request rest ih => exact ⟨obeys.1, fun answer => ih answer (obeys.2 answer)⟩
  | stuck => exact obeys

theorem obeys_andThen {next : α → Talk β} {post : β → π → Prop} :
    (talk.andThen next).Obeys conduct post point ↔
      talk.Obeys conduct (fun result point => (next result).Obeys conduct post point) point := by
  induction talk generalizing point with
  | done result => rfl
  | call request rest ih => exact and_congr_right fun _ => forall_congr' fun answer => ih answer
  | stuck => rfl

/-- Where a talk ends that obeys, what is to hold holds. -/
theorem Obeys.run {post : α → π → Prop} {rule : AnswerRule σ} {world after : σ} {result : α}
    (obeys : talk.Obeys conduct post point)
    (run : talk.run rule world = (some result, after)) : ∃ point, post result point := by
  induction talk generalizing point world with
  | done value =>
      cases run
      exact ⟨point, obeys⟩
  | call request rest ih => exact ih _ (obeys.2 _) run
  | stuck => cases run

end Talk

namespace Operation

/-- The talk of an operation obeys a rule. -/
def Obeys (conduct : Conduct π) (operation : Operation τ α) (state : τ) (point : π)
    (post : Except DebugError α → τ → π → Prop) : Prop :=
  (operation.run.run state).Obeys conduct (fun entry => post entry.1 entry.2) point

variable {conduct : Conduct π} {state : τ} {point : π}
  {post post' : Except DebugError α → τ → π → Prop}

theorem Obeys.mono {operation : Operation τ α} (obeys : operation.Obeys conduct state point post)
    (weaker : ∀ result state point, post result state point → post' result state point) :
    operation.Obeys conduct state point post' :=
  Talk.Obeys.mono obeys fun entry => weaker entry.1 entry.2

/-- Whatever rule answers an operation that obeys, what is to hold holds in the end. -/
theorem Obeys.leaves {operation : Operation τ α} {rule : AnswerRule σ} {world : σ}
    (obeys : operation.Obeys conduct state point post) :
    operation.Leaves rule state world fun result state _ => ∃ point, post result state point := by
  intro result after last run
  have talk : (operation.run.run state).Obeys conduct (fun entry => post entry.1 entry.2) point :=
    obeys
  exact talk.run run

@[simp]
theorem obeys_pure (value : α) :
    (pure value : Operation τ α).Obeys conduct state point post ↔ post (.ok value) state point :=
  Iff.rfl

@[simp]
theorem obeys_get {post : Except DebugError τ → τ → π → Prop} :
    (get : Operation τ τ).Obeys conduct state point post ↔ post (.ok state) state point := Iff.rfl

@[simp]
theorem obeys_set {post : Except DebugError PUnit → τ → π → Prop} (next : τ) :
    (set next : Operation τ PUnit).Obeys conduct state point post ↔ post (.ok ⟨⟩) next point :=
  Iff.rfl

@[simp]
theorem obeys_modify {post : Except DebugError PUnit → τ → π → Prop} (change : τ → τ) :
    (modify change : Operation τ PUnit).Obeys conduct state point post ↔
      post (.ok ⟨⟩) (change state) point := Iff.rfl

@[simp]
theorem obeys_ask {request : Request} {post : Except DebugError request.Answer → τ → π → Prop} :
    (ask request : Operation τ request.Answer).Obeys conduct state point post ↔
      conduct.allows point request ∧
        ∀ answer, post (.ok answer) state (conduct.next point ⟨request, answer⟩) := Iff.rfl

@[simp]
theorem obeys_stuck :
    (stuck : Operation τ α).Obeys conduct state point post ↔ conduct.lasts point := Iff.rfl

/-- One operation after the other: a failure of the first one is that of both. -/
@[simp]
theorem obeys_bind {post : Except DebugError β → τ → π → Prop} (operation : Operation τ α)
    (next : α → Operation τ β) :
    (operation >>= next).Obeys conduct state point post ↔
      operation.Obeys conduct state point fun result state point =>
        match result with
        | .ok value => (next value).Obeys conduct state point post
        | .error error => post (.error error) state point := by
  have after : (operation >>= next).run.run state =
      (operation.run.run state).andThen fun entry =>
        ExceptT.bindCont next entry.1 entry.2 := rfl
  unfold Obeys
  rw [after, Talk.obeys_andThen]
  constructor
  all_goals
    refine fun obeys => Talk.Obeys.mono obeys ?_
    rintro ⟨error | value, state⟩ point holds
    · exact holds
    · exact holds

/-- A request that is followed by something else. -/
theorem obeys_ask_bind {request : Request} {next : request.Answer → Operation τ α} :
    (ask request >>= next).Obeys conduct state point post ↔
      conduct.allows point request ∧
        ∀ answer, (next answer).Obeys conduct state (conduct.next point ⟨request, answer⟩) post :=
  (obeys_bind _ _).trans obeys_ask

/-- A failure that is caught. -/
@[simp]
theorem obeys_tryCatch (operation : Operation τ α) (handle : DebugError → Operation τ α) :
    (tryCatch operation handle).Obeys conduct state point post ↔
      operation.Obeys conduct state point fun result state point =>
        match result with
        | .ok value => post (.ok value) state point
        | .error error => (handle error).Obeys conduct state point post := by
  unfold Obeys
  rw [run_tryCatch, Talk.obeys_andThen]
  constructor
  all_goals
    refine fun obeys => Talk.Obeys.mono obeys ?_
    rintro ⟨error | value, state⟩ point holds
    · exact holds
    · exact holds

/-- An operation on a part of a state. -/
@[simp]
theorem obeys_within {post : Except DebugError α → υ → π → Prop} {state : υ} (part : υ → τ)
    (put : τ → υ → υ) (operation : Operation τ α) :
    (operation.within part put).Obeys conduct state point post ↔
      operation.Obeys conduct (part state) point fun result inner point =>
        post result (put inner state) point := by
  have after : (operation.within part put).run.run state =
      (operation.run.run (part state)).andThen fun entry =>
        .done (entry.1, put entry.2 state) := rfl
  unfold Obeys
  rw [after, Talk.obeys_andThen]
  rfl

/-! ## What is kept in order -/

/-- Wherever it is done in order, the operation obeys, and it leaves things in order. -/
def Abides (conduct : Conduct π) (inOrder : τ → π → Prop) (operation : Operation τ α) : Prop :=
  ∀ state point, inOrder state point →
    operation.Obeys conduct state point fun _ state point => inOrder state point

variable {inOrder : τ → π → Prop}

theorem Abides.pure (value : α) : Abides conduct inOrder (pure value : Operation τ α) :=
  fun _ _ holds => holds

theorem Abides.throw (error : DebugError) :
    Abides conduct inOrder (throw error : Operation τ α) := fun _ _ holds => holds

theorem Abides.get : Abides conduct inOrder (get : Operation τ τ) := fun _ _ holds => holds

theorem Abides.stuck (lasts : ∀ state point, inOrder state point → conduct.lasts point) :
    Abides conduct inOrder (stuck : Operation τ α) := lasts

theorem Abides.ask {request : Request}
    (allows : ∀ state point, inOrder state point → conduct.allows point request ∧
      ∀ answer, inOrder state (conduct.next point ⟨request, answer⟩)) :
    Abides conduct inOrder (ask request : Operation τ request.Answer) := allows

theorem Abides.bind {operation : Operation τ α} {next : α → Operation τ β}
    (first : Abides conduct inOrder operation)
    (rest : ∀ value, Abides conduct inOrder (next value)) :
    Abides conduct inOrder (operation >>= next) := by
  intro state point holds
  refine (obeys_bind operation next).2 ((first state point holds).mono ?_)
  rintro (error | value) state point holds
  · exact holds
  · exact rest value state point holds

theorem Abides.tryCatch {operation : Operation τ α} {handle : DebugError → Operation τ α}
    (first : Abides conduct inOrder operation)
    (rest : ∀ error, Abides conduct inOrder (handle error)) :
    Abides conduct inOrder (tryCatch operation handle) := by
  intro state point holds
  refine (obeys_tryCatch operation handle).2 ((first state point holds).mono ?_)
  rintro (error | value) state point holds
  · exact rest error state point holds
  · exact holds

theorem Abides.mapM {entries : List α} {body : α → Operation τ β}
    (abides : ∀ entry, Abides conduct inOrder (body entry)) :
    Abides conduct inOrder (entries.mapM body) := by
  have all : ∀ results, Abides conduct inOrder (List.mapM.loop body entries results) := by
    induction entries with
    | nil => exact fun _ => .pure _
    | cons entry rest ih => exact fun results => (abides entry).bind fun result => ih _
  exact all []

theorem Abides.forIn {entries : List β} {start : α} {body : β → α → Operation τ (ForInStep α)}
    (abides : ∀ entry value, Abides conduct inOrder (body entry value)) :
    Abides conduct inOrder (forIn entries start body) := by
  induction entries generalizing start with
  | nil => exact .pure _
  | cons entry rest ih =>
      rw [List.forIn_cons]
      refine (abides entry start).bind fun step => ?_
      cases step with
      | done value => exact .pure _
      | yield value => exact ih

theorem Abides.attempt {command : Command}
    (allows : ∀ state point, inOrder state point →
      conduct.allows point (.submit command none) ∧
        ∀ answer, inOrder state (conduct.next point ⟨.submit command none, answer⟩)) :
    Abides conduct inOrder (attempt command : Operation τ _) := by
  refine (Abides.ask allows).bind fun answer => ?_
  split
  · exact .pure _
  · exact .pure _
  · exact .throw _

end Operation

/-! ## Plain requests -/

/-- Whether a request is nothing but a command, a question whether the session has ended, a message
or a warning. -/
def Request.isPlain : Request → Bool
  | .submit _ none | .isClosed | .report (.message _) | .report (.warning _) => true
  | _ => false

/-- Names of the commands after which a script is no longer where it was. -/
def Continuation.movingNames : List String := "detach" :: names

theorem Continuation.not_mem_names {name : String} (other : name ∉ movingNames) : name ∉ names :=
  fun member => other (List.mem_cons_of_mem _ member)

/-- Whether a request is plain and leaves the script where it is. -/
def Request.isQuiet : Request → Bool
  | .submit command none => !Continuation.movingNames.contains command.name
  | request => request.isPlain

theorem Request.resumes_of_isQuiet {request : Request} (quiet : request.isQuiet = true) :
    request.resumes = false := by
  cases request with
  | submit command limit =>
      cases limit with
      | some limit => rfl
      | none =>
          have other : command.name ∉ Continuation.movingNames := by simpa [isQuiet] using quiet
          simpa [resumes] using Continuation.not_mem_names other
  | _ => rfl

theorem Request.isPlain_of_isQuiet {request : Request} (quiet : request.isQuiet = true) :
    request.isPlain = true := by
  unfold isQuiet at quiet
  split at quiet
  · rfl
  · exact quiet

/-- The rule that allows some requests, wherever they are made.  Only what lets the script go on may
do so forever. -/
def Conduct.only (allowed : Request → Prop) : Conduct Unit where
  allows _ := allowed
  next _ _ := ()
  lasts _ := ∃ request, allowed request ∧ request.resumes = true

namespace Operation

/-- Wherever it is done, and whatever is answered, the operation makes requests of a kind only, and
what is looked at of its state stays as it was. -/
def Asks (allowed : Request → Prop) (view : τ → υ) (operation : Operation τ α) : Prop :=
  ∀ seen, Abides (.only allowed) (fun state _ => view state = seen) operation

/-- The operation makes plain requests only that leave the script where it is. -/
abbrev Quiet (view : τ → υ) (operation : Operation τ α) : Prop :=
  Asks (fun request => request.isQuiet = true) view operation

variable {allowed : Request → Prop} {view : τ → υ}

/-- Where requests of a kind are allowed and leave something as it is, that is kept by an operation
that makes no others. -/
theorem Asks.obeys {operation : Operation τ α} (asks : operation.Asks allowed view)
    {conduct : Conduct π} {holds : π → Prop}
    (allows : ∀ point, holds point → ∀ request : Request, allowed request →
      conduct.allows point request ∧ ∀ answer, holds (conduct.next point ⟨request, answer⟩))
    (lasts : ∀ point, holds point → ∀ request : Request, allowed request →
      request.resumes = true → conduct.lasts point)
    (state : τ) {point : π} (here : holds point) :
    operation.Obeys conduct state point fun _ after last =>
      holds last ∧ view after = view state := by
  have talks {γ : Type} (talk : Talk γ) {kept : γ → Prop} (point : π) (here : holds point)
      (asks : talk.Obeys (.only allowed) (fun result _ => kept result) ()) :
      talk.Obeys conduct (fun result last => holds last ∧ kept result) point := by
    induction talk generalizing point with
    | done result => exact ⟨here, asks⟩
    | call request rest ih =>
        obtain ⟨allowed, stays⟩ := allows point here request asks.1
        exact ⟨allowed, fun answer => ih answer _ (stays answer) (asks.2 answer)⟩
    | stuck =>
        obtain ⟨request, allowed, resumes⟩ := asks
        exact lasts point here request allowed resumes
  exact talks _ point here (asks (view state) state () rfl)

theorem Asks.mono {operation : Operation τ α} {wider : Request → Prop}
    (asks : operation.Asks allowed view) (weaker : ∀ request, allowed request → wider request) :
    operation.Asks wider view := by
  intro seen state _ same
  have lasts (point : Unit) (_ : True) (request : Request) (holds : allowed request)
      (resumes : request.resumes = true) : (Conduct.only wider).lasts point :=
    ⟨request, weaker request holds, resumes⟩
  have obeys : operation.Obeys (.only wider) state () fun _ after _ =>
      True ∧ view after = view state :=
    asks.obeys (fun _ _ request holds => ⟨weaker request holds, fun _ => trivial⟩) lasts state
      trivial
  exact obeys.mono fun _ _ _ kept => kept.2.trans same

theorem Asks.pure (value : α) : Asks allowed view (pure value : Operation τ α) :=
  fun _ => .pure value

theorem Asks.throw (error : DebugError) : Asks allowed view (throw error : Operation τ α) :=
  fun _ => .throw error

theorem Asks.stuck {request : Request} (allows : allowed request)
    (resumes : request.resumes = true) : Asks allowed view (stuck : Operation τ α) :=
  fun _ => .stuck fun _ _ _ => ⟨request, allows, resumes⟩

theorem Asks.bind {operation : Operation τ α} {next : α → Operation τ β}
    (first : operation.Asks allowed view) (rest : ∀ value, (next value).Asks allowed view) :
    (operation >>= next).Asks allowed view :=
  fun seen => (first seen).bind fun value => rest value seen

theorem Asks.get : (get : Operation τ τ).Asks allowed view := fun _ => .get

/-- A state may be looked at before it is changed. -/
theorem Asks.get_bind {next : τ → Operation τ α}
    (rest : ∀ state, (next state).Obeys (.only allowed) state ()
      fun _ after _ => view after = view state) :
    (MonadState.get >>= next).Asks allowed view := fun _ state _ seen =>
  (obeys_bind _ _).2 (obeys_get.2 ((rest state).mono fun _ _ _ kept => kept.trans seen))

theorem Asks.modify (change : τ → τ) (keeps : ∀ state, view (change state) = view state) :
    (modify change : Operation τ PUnit).Asks allowed view :=
  fun _ state _ seen => (keeps state).trans seen

theorem Asks.tryCatch {operation : Operation τ α} {handle : DebugError → Operation τ α}
    (first : operation.Asks allowed view) (rest : ∀ error, (handle error).Asks allowed view) :
    (MonadExcept.tryCatch operation handle).Asks allowed view :=
  fun seen => (first seen).tryCatch fun error => rest error seen

theorem Asks.mapM {entries : List α} {body : α → Operation τ β}
    (asks : ∀ entry, (body entry).Asks allowed view) : (entries.mapM body).Asks allowed view :=
  fun seen => .mapM fun entry => asks entry seen

/-- An operation on a part of a state, if what is looked at does not depend on that part. -/
theorem Asks.within {other : Type} {part : υ → τ} {put : τ → υ → υ} {whole : υ → other}
    {operation : Operation τ α} (asks : operation.Asks allowed view)
    (apart : ∀ inner state, whole (put inner state) = whole state) :
    (operation.within part put).Asks allowed whole := fun _ state _ seen =>
  (obeys_within part put operation).2 ((asks (view (part state)) (part state) () rfl).mono
    fun _ inner _ _ => (apart inner state).trans seen)

theorem Quiet.ask {request : Request} (quiet : request.isQuiet = true) :
    (ask request : Operation τ request.Answer).Quiet view :=
  fun _ _ _ seen => ⟨quiet, fun _ => seen⟩

theorem Asks.attempt {command : Command} (asks : allowed (.submit command none)) :
    (attempt command : Operation τ _).Asks allowed view :=
  fun _ => Abides.attempt fun _ _ seen => ⟨asks, fun _ => seen⟩

theorem Asks.command {command : Command} (asks : allowed (.submit command none)) :
    (Operation.command command : Operation τ _).Asks allowed view := by
  refine (Asks.attempt asks).bind fun answer => ?_
  split
  · exact .pure _
  · exact .throw _

theorem isQuiet_submit {command : Command} (other : command.name ∉ Continuation.movingNames) :
    (Request.submit command none).isQuiet = true := by
  simpa [Request.isQuiet] using other

theorem Quiet.attempt {command : Command} (other : command.name ∉ Continuation.movingNames) :
    (Operation.attempt command : Operation τ _).Quiet view := Asks.attempt (isQuiet_submit other)

theorem Quiet.command {command : Command} (other : command.name ∉ Continuation.movingNames) :
    (Operation.command command : Operation τ _).Quiet view := Asks.command (isQuiet_submit other)

theorem Asks.orThrow (result : Except ProtocolError α) :
    (orThrow result : Operation τ α).Asks allowed view := by
  cases result with
  | ok value => exact .pure _
  | error error => exact .throw _

end Operation

open Operation

/-! ## Breakpoints -/

namespace BreakpointTable

variable (context : ScriptContext)

theorem quiet_offer (breakpoint : Breakpoint) : Quiet (fun _ => ()) (offer breakpoint) := by
  have line (engineId : Nat) : Quiet (fun _ => ()) (engineLine? engineId) := by
    refine (Quiet.attempt (show "breakpoint_get" ∉ Continuation.movingNames by decide)).bind
      fun answer => ?_
    split <;> exact .pure _
  have install (hit : Option HitCondition) : Quiet (fun _ => ()) (install breakpoint hit) := by
    have other : (breakpoint.setCommand hit).name ∉ Continuation.movingNames := by
      rw [Breakpoint.setCommand_name]
      decide
    refine (Quiet.attempt other).bind fun answer => ?_
    split
    · exact .pure _
    · split
      · exact .pure _
      · refine (line _).bind fun found => ?_
        split <;> exact .pure _
  unfold offer
  split
  · exact .pure _
  · split
    · exact install _
    · exact .pure _

theorem quiet_create (request : BreakpointRequest) :
    Quiet (fun _ => ()) (create context request) := by
  have takes : Quiet (fun _ => ()) takeId := Asks.get_bind fun _ => rfl
  refine takes.bind fun id => (quiet_offer _).bind fun breakpoint => ?_
  exact (Asks.modify (fun table => table.add breakpoint) fun _ => rfl).bind fun _ => .pure _

theorem quiet_setBreakpoint (request : BreakpointRequest) :
    Quiet (fun _ => ()) (setBreakpoint context request) := by
  refine Asks.get.bind fun table => ?_
  split
  · exact .pure _
  · exact quiet_create context request

theorem quiet_setAll (requests : List BreakpointRequest) :
    Quiet (fun _ => ()) (setAll context requests) := by
  induction requests with
  | nil => exact .pure _
  | cons request rest ih =>
      exact (quiet_setBreakpoint context request).bind fun _ => ih.bind fun _ => .pure _

theorem quiet_removeById (id : Nat) : Quiet (fun _ => ()) (removeById id) := by
  have forget (breakpoint : Breakpoint) : Quiet (fun _ => ()) (do
      modify fun table => table.without id
      return [breakpoint] : TableOperation (List Breakpoint)) :=
    (Asks.modify (fun table : BreakpointTable => table.without id) fun _ => rfl).bind
      fun _ => .pure _
  refine Asks.get.bind fun table => ?_
  split
  · exact .pure _
  · dsimp only
    split
    · refine (Quiet.attempt (show "breakpoint_remove" ∉ Continuation.movingNames by decide)).bind
        fun answer => ?_
      split
      · exact forget _
      · split
        · exact (Asks.throw _).bind fun _ => forget _
        · exact forget _
    · exact forget _

theorem quiet_removeWhere (p : BreakpointKind → Bool) : Quiet (fun _ => ()) (removeWhere p) := by
  have all (ids : List Nat) : Quiet (fun _ => ()) (removeAll ids) := by
    induction ids with
    | nil => exact .pure _
    | cons id rest ih => exact (quiet_removeById id).bind fun _ => ih.bind fun _ => .pure _
  exact Asks.get.bind fun _ => all _

theorem quiet_setLines (file : String) (requests : List BreakpointRequest) :
    Quiet (fun _ => ()) (setLines context file requests) :=
  (quiet_removeWhere _).bind fun _ => quiet_setAll context requests

theorem quiet_setException (enable : Bool) : Quiet (fun _ => ()) (setException context enable) := by
  refine Asks.get.bind fun table => ?_
  split
  · exact .pure _
  · exact (quiet_setBreakpoint context _).bind fun _ => .pure _
  · exact (quiet_removeById _).bind fun _ => .pure _
  · exact .pure _

end BreakpointTable

/-! ## Looking at a script, and letting it go on -/

namespace Link

theorem quiet_referTo (scope : VariableScope) : Quiet Link.mode (referTo scope) :=
  Asks.get_bind fun _ => rfl

theorem quiet_stackTrace : Quiet Link.mode stackTrace :=
  (Quiet.command (show "stack_get" ∉ Continuation.movingNames by decide)).bind fun _ =>
    .mapM fun _ => Asks.get_bind fun _ => rfl

theorem quiet_contexts (depth : Nat) : Quiet Link.mode (contexts depth) :=
  (Quiet.command (show "context_names" ∉ Continuation.movingNames by decide)).bind fun _ => .pure _

theorem quiet_scopes (frame : Int) : Quiet Link.mode (scopes frame) := by
  refine Asks.get.bind fun link => ?_
  split
  · exact .throw _
  · exact (quiet_contexts _).bind fun _ => .mapM fun _ => (quiet_referTo _).bind fun _ => .pure _

theorem quiet_properties {command : Command} (other : command.name ∉ Continuation.movingNames) :
    Quiet Link.mode (properties command) :=
  (Quiet.command other).bind fun _ => .orThrow _

theorem quiet_contextVariables (depth contextId : Nat) :
    Quiet Link.mode (contextVariables depth contextId) :=
  quiet_properties (show "context_get" ∉ Continuation.movingNames by decide)

theorem quiet_page (depth : Nat) (contextId : Option Nat) (fullName : String) (page : Nat) :
    Quiet Link.mode (properties (pageCommand depth contextId fullName page)) := by
  apply quiet_properties
  cases contextId <;> exact (show "property_get" ∉ Continuation.movingNames by decide)

theorem quiet_propertyChildren (depth : Nat) (contextId : Option Nat) (fullName : String) :
    Quiet Link.mode (propertyChildren depth contextId fullName) := by
  have more (total pages : Nat) : ∀ page children, Quiet Link.mode
      (addPages (pageCommand depth contextId fullName) total pages page children) := by
    induction pages with
    | zero => exact fun _ _ => .pure _
    | succ pages ih =>
        intro page children
        unfold addPages
        split
        · exact .pure _
        · refine (quiet_page _ _ _ _).bind fun found => ?_
          dsimp only
          split <;> split
          · exact .pure _
          · exact ih _ _
          · exact .pure _
          · exact ih _ _
  refine (quiet_page _ _ _ _).bind fun found => ?_
  split
  · exact .pure _
  · exact more _ _ _ _

theorem quiet_describeProperty (depth : Nat) (contextId : Option Nat) (property : Property) :
    Quiet Link.mode (describeProperty depth contextId property) := by
  unfold describeProperty
  split
  · exact (quiet_referTo _).bind fun _ => .pure _
  · exact (Asks.pure _).bind fun _ => .pure _

theorem quiet_variablesIn (reference : Int) : Quiet Link.mode (variablesIn reference) := by
  refine Asks.get.bind fun link => ?_
  split
  · exact .throw _
  · exact (quiet_contextVariables _ _).bind fun _ => .mapM (quiet_describeProperty _ _)
  · exact (quiet_propertyChildren _ _ _).bind fun _ => .mapM (quiet_describeProperty _ _)

theorem quiet_frameDepth (frame : Option Int) : Quiet Link.mode (frameDepth frame) := by
  cases frame with
  | none => exact .pure _
  | some frame =>
      refine Asks.get.bind fun link => ?_
      split
      · exact .pure _
      · exact .throw _

theorem quiet_evaluate (request : EvaluateRequest) : Quiet Link.mode (evaluate request) := by
  refine (quiet_frameDepth _).bind fun depth => ?_
  refine (quiet_properties (show "property_get" ∉ Continuation.movingNames by decide)).bind
    fun found => ?_
  split
  · exact .throw _
  · exact (quiet_describeProperty _ _ _).bind fun _ => .pure _

theorem quiet_completions (text : String) (frame : Option Int) :
    Quiet Link.mode (completions text frame) := by
  have names (depth : Nat) (contexts : List VariableContext) :
      Quiet Link.mode (variableNames depth contexts) := by
    induction contexts with
    | nil => exact .pure _
    | cons context rest ih =>
        exact (quiet_contextVariables _ _).bind fun _ => ih.bind fun _ => .pure _
  have members (depth : Nat) (expression : String) :
      Quiet Link.mode (memberNames depth expression) := by
    refine Asks.bind (Asks.tryCatch ((quiet_propertyChildren _ _ _).bind fun _ => .pure _)
      fun error => ?_) fun found => ?_
    · split
      · exact .pure _
      · exact (Asks.throw _).bind fun _ => .pure _
    · cases found <;> exact .pure _
  refine (quiet_frameDepth _).bind fun depth => ?_
  dsimp only
  split
  · exact (members _ _).bind fun _ => .pure _
  · exact (quiet_contexts _).bind fun _ => (names _ _).bind fun _ => .pure _

theorem quiet_printMessages {view : Link → υ} (messages : List String) :
    Quiet view (printMessages messages) := by
  have segment (segment : LogSegment) : Quiet view (segmentText segment) := by
    cases segment with
    | text content => exact .pure _
    | expression source =>
        refine (Quiet.attempt (show "property_get" ∉ Continuation.movingNames by decide)).bind
          fun answer => ?_
        split
        · exact (Asks.orThrow _).bind fun _ => .pure _
        · exact .pure _
  have segments (segments : List LogSegment) : Quiet view (segmentsText segments) := by
    induction segments with
    | nil => exact .pure _
    | cons first rest ih => exact (segment first).bind fun _ => ih.bind fun _ => .pure _
  induction messages with
  | nil => exact .pure _
  | cons message rest ih =>
      exact (segments _).bind fun _ => (Quiet.ask rfl).bind fun _ => ih

theorem quiet_findStop (response : Response) (state : RunState) (reason : StatusReason) :
    Quiet Link.mode (findStop response state reason) := by
  have place : Quiet Link.mode topLocation? := by
    refine (Quiet.attempt (show "stack_get" ∉ Continuation.movingNames by decide)).bind
      fun answer => ?_
    split <;> exact .pure _
  exact place.bind fun _ => Asks.get.bind fun _ => .pure _

/-- Whether a request is quiet or lets the script go on in a way. -/
def Moves (continuation : Continuation) (request : Request) : Prop :=
  request.isQuiet = true ∨ request = .submit (.named continuation.commandName) none

theorem asks_execute (continuation : Continuation) (turns : Nat) :
    (execute continuation turns).Asks (Moves continuation) Link.mode := by
  induction turns with
  | zero =>
      refine .stuck (.inr rfl) ?_
      cases continuation <;> decide
  | succ turns ih =>
      have quietly {β : Type} {operation : LinkOperation β} (quiet : Quiet Link.mode operation) :
          operation.Asks (Moves continuation) Link.mode := quiet.mono fun _ quiet => .inl quiet
      refine Asks.bind (Asks.modify _ fun _ => rfl) fun _ =>
        Asks.bind (Asks.command (.inr rfl)) fun response => ?_
      split
      · exact .throw _
      · dsimp only
        split
        · exact .pure _
        · refine (quietly (quiet_findStop _ _ _)).bind fun stop => ?_
          have goesOn : Asks (Moves continuation) Link.mode
              (if (continuation == .continue && !stop.isException && !stop.messages.isEmpty &&
                stop.hits.isEmpty) = true then execute continuation turns
              else do
                modify fun link => { link with lastStop := some response }
                return { stop.status with stopReason := some (stop.reason continuation) } :
              LinkOperation ExecutionStatus) := by
            split
            · exact ih
            · exact Asks.bind (Asks.modify _ fun _ => rfl) fun _ => .pure _
          split
          · exact (quietly (quiet_printMessages _)).bind fun _ => goesOn
          · exact goesOn

end Link

end DebugBridge
