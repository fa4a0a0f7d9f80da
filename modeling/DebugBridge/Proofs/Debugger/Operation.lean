import DebugBridge.Debugger.Talk

/-!
# What an operation ensures

An operation ends, as its surroundings answer it, in a result and a changed state.  An
assertion about both, and about the state that the surroundings are left in, is pulled back through
the parts of the operation until only the answers to its requests remain.
-/

namespace DebugBridge

/-- A rule by which the surroundings answer; what they answer may depend on a state of theirs. -/
abbrev AnswerRule (σ : Type) := (request : Request) → σ → request.Answer × σ

variable {σ τ υ α β : Type} {rule : AnswerRule σ}

/-- What a request is answered with where nothing happens. -/
def Request.idleAnswer : (request : Request) → request.Answer
  | .submit _ _ | .interrupt _ | .detach => .error .closed
  | .report _ | .supervise _ _ | .close | .awaitEnd | .letGo | .kill | .sleep _ => ()
  | .isClosed | .isLetGo | .spawn _ | .connect _ _ => false
  | .awaitInit _ => .timedOut
  | .listen _ _ => .error .nobodyReads
  | .awaitEngine _ _ => .timedOut
  | .exitCode | .awaitExit _ => none
  | .consult _ _ _ => .notStarted
  | .now => (0 : Nat)

/-- The rule of surroundings in which nothing happens but that an engine answers commands. -/
def AnswerRule.ofEngine (answer : Command → σ → Except SessionError Response × σ) : AnswerRule σ
  | .submit command _, world => answer command world
  | request, world => (request.idleAnswer, world)

/-- After a talk the next one goes on from the state that the surroundings were left in. -/
theorem Talk.run_andThen (talk : Talk α) (next : α → Talk β) (world : σ) :
    (talk.andThen next).run rule world =
      match talk.run rule world with
      | (some result, world) => (next result).run rule world
      | (none, world) => (none, world) := by
  induction talk generalizing world with
  | done result => rfl
  | call request rest ih => exact ih _ _
  | stuck => rfl

namespace Operation

/-- The operation comes to an end, and something holds of its result and of the states that are
left, its own and that of the surroundings. -/
def Ensures (rule : AnswerRule σ) (operation : Operation τ α) (state : τ) (world : σ)
    (post : Except DebugError α → τ → σ → Prop) : Prop :=
  ∃ result state' world',
    (operation.run.run state).run rule world = (some (result, state'), world') ∧
      post result state' world'

variable {state : τ} {world : σ} {post post' : Except DebugError α → τ → σ → Prop}

theorem Ensures.mono {operation : Operation τ α}
    (ensures : operation.Ensures rule state world post)
    (weaker : ∀ result state world, post result state world → post' result state world) :
    operation.Ensures rule state world post' := by
  obtain ⟨result, state', world', run, holds⟩ := ensures
  exact ⟨result, state', world', run, weaker result state' world' holds⟩

theorem ensures_congr {operation : Operation τ α}
    (same : ∀ result state world, post result state world ↔ post' result state world) :
    operation.Ensures rule state world post ↔
      operation.Ensures rule state world post' :=
  ⟨fun ensures => ensures.mono fun _ _ _ => (same _ _ _).1,
    fun ensures => ensures.mono fun _ _ _ => (same _ _ _).2⟩

/-- What is ensured holds of what the run gives. -/
theorem Ensures.of_run {operation : Operation τ α} {result : Except DebugError α} {state' : τ}
    {world' : σ} (ensures : operation.Ensures rule state world post)
    (run : (operation.run.run state).run rule world = (some (result, state'), world')) :
    post result state' world' := by
  obtain ⟨other, otherState, otherWorld, same, holds⟩ := ensures
  cases run.symm.trans same
  exact holds

/-- An operation that has two effects has both. -/
theorem Ensures.and {operation : Operation τ α} (first : operation.Ensures rule state world post)
    (second : operation.Ensures rule state world post') :
    operation.Ensures rule state world fun result state world =>
      post result state world ∧ post' result state world := by
  obtain ⟨result, state', world', run, holds⟩ := second
  exact ⟨result, state', world', run, first.of_run run, holds⟩

/-- An operation that is over at once ensures what holds of its result. -/
theorem ensures_of_run_eq {operation : Operation τ α} {result : Except DebugError α} {state' : τ}
    {world' : σ}
    (run : (operation.run.run state).run rule world = (some (result, state'), world')) :
    operation.Ensures rule state world post ↔ post result state' world' :=
  ⟨fun ensures => ensures.of_run run, fun holds => ⟨result, state', world', run, holds⟩⟩

@[simp]
theorem ensures_pure (value : α) :
    (pure value : Operation τ α).Ensures rule state world post ↔
      post (.ok value) state world := ensures_of_run_eq rfl

@[simp]
theorem ensures_throw (error : DebugError) :
    (throw error : Operation τ α).Ensures rule state world post ↔
      post (.error error) state world := ensures_of_run_eq rfl

@[simp]
theorem ensures_get {post : Except DebugError τ → τ → σ → Prop} :
    (get : Operation τ τ).Ensures rule state world post ↔
      post (.ok state) state world := ensures_of_run_eq rfl

@[simp]
theorem ensures_set {post : Except DebugError PUnit → τ → σ → Prop} (next : τ) :
    (set next : Operation τ PUnit).Ensures rule state world post ↔
      post (.ok ⟨⟩) next world := ensures_of_run_eq rfl

@[simp]
theorem ensures_modify {post : Except DebugError PUnit → τ → σ → Prop} (change : τ → τ) :
    (modify change : Operation τ PUnit).Ensures rule state world post ↔
      post (.ok ⟨⟩) (change state) world := ensures_of_run_eq rfl

@[simp]
theorem ensures_ask {request : Request}
    {post : Except DebugError request.Answer → τ → σ → Prop} :
    (ask request : Operation τ request.Answer).Ensures rule state world post ↔
      post (.ok (rule request world).1) state (rule request world).2 :=
  ensures_of_run_eq rfl

/-- What is ensured of an operation that goes on after another one, whatever becomes of that. -/
theorem ensures_andThen {whole : Operation υ β} {state' : υ}
    {post : Except DebugError β → υ → σ → Prop} (operation : Operation τ α) (state : τ)
    (next : Except DebugError α → τ → Talk (Except DebugError β × υ))
    (run : whole.run.run state' =
      (operation.run.run state).andThen fun entry => next entry.1 entry.2) :
    whole.Ensures rule state' world post ↔
      operation.Ensures rule state world fun result state world =>
        ∃ last after afterWorld,
          (next result state).run rule world = (some (last, after), afterWorld) ∧
            post last after afterWorld := by
  unfold Ensures
  rw [run, Talk.run_andThen]
  constructor
  · rintro ⟨last, after, afterWorld, ended, holds⟩
    split at ended
    · next entry between first =>
        exact ⟨entry.1, entry.2, between, first, last, after, afterWorld, ended, holds⟩
    · cases ended
  · rintro ⟨result, middle, between, first, last, after, afterWorld, ended, holds⟩
    rw [first]
    exact ⟨last, after, afterWorld, ended, holds⟩

/-- A talk that is over has one end. -/
theorem run_done_iff {result : Except DebugError α} :
    (∃ last after afterWorld,
      (Talk.done (result, state)).run rule world = (some (last, after), afterWorld) ∧
        post last after afterWorld) ↔ post result state world := by
  constructor
  · rintro ⟨last, after, afterWorld, ended, holds⟩
    cases ended
    exact holds
  · exact fun holds => ⟨result, state, world, rfl, holds⟩

/-- One operation after the other: a failure of the first one is that of both. -/
@[simp]
theorem ensures_bind {post : Except DebugError β → τ → σ → Prop} (operation : Operation τ α)
    (next : α → Operation τ β) :
    (operation >>= next).Ensures rule state world post ↔
      operation.Ensures rule state world fun result state world =>
        match result with
        | .ok value => (next value).Ensures rule state world post
        | .error error => post (.error error) state world := by
  rw [ensures_andThen operation state (ExceptT.bindCont next) rfl]
  apply ensures_congr
  rintro (error | value) after afterWorld
  · exact run_done_iff
  · rfl

/-- What follows an operation whose failure is caught. -/
def catchCont (handle : DebugError → Operation τ α) :
    Except DebugError α → τ → Talk (Except DebugError α × τ)
  | .ok value, state => .done (.ok value, state)
  | .error error, state => (handle error).run.run state

theorem run_tryCatch (operation : Operation τ α) (handle : DebugError → Operation τ α) :
    (tryCatch operation handle).run.run state =
      (operation.run.run state).andThen fun entry => catchCont handle entry.1 entry.2 := by
  apply congrArg (Talk.andThen (operation.run.run state))
  funext ⟨result, state⟩
  cases result <;> rfl

/-- A failure that is caught. -/
@[simp]
theorem ensures_tryCatch (operation : Operation τ α) (handle : DebugError → Operation τ α) :
    (tryCatch operation handle).Ensures rule state world post ↔
      operation.Ensures rule state world fun result state world =>
        match result with
        | .ok value => post (.ok value) state world
        | .error error => (handle error).Ensures rule state world post := by
  rw [ensures_andThen operation state (catchCont handle) (run_tryCatch operation handle)]
  apply ensures_congr
  rintro (error | value) after afterWorld
  · rfl
  · exact run_done_iff

/-- An operation on a part of a state. -/
@[simp]
theorem ensures_within {post : Except DebugError α → υ → σ → Prop} {state : υ} (part : υ → τ)
    (put : τ → υ → υ) (operation : Operation τ α) :
    (operation.within part put).Ensures rule state world post ↔
      operation.Ensures rule (part state) world fun result inner world =>
        post result (put inner state) world := by
  rw [ensures_andThen operation (part state)
    (fun result inner => .done (result, put inner state)) rfl]
  exact ensures_congr fun _ _ _ => run_done_iff

/-- A command that the engine may refuse. -/
theorem ensures_attempt {post : Except DebugError (Except EngineError Response) → τ → σ → Prop}
    (command : Command) :
    (attempt command : Operation τ _).Ensures rule state world post ↔
      match rule (.submit command none) world with
      | (.ok response, world) => post (.ok (.ok response)) state world
      | (.error (.engine error), world) => post (.ok (.error error)) state world
      | (.error error, world) => post (.error (.session error)) state world := by
  rw [attempt, ensures_bind, ensures_ask]
  rcases rule (.submit command none) world with ⟨error | response, next⟩
  · cases error <;> simp
  · simp

/-! ## Success -/

/-- The operation comes to an end, and if it succeeds, something holds of its value and of the
states that are left. -/
def EnsuresOk (rule : AnswerRule σ) (operation : Operation τ α) (state : τ) (world : σ)
    (post : α → τ → σ → Prop) : Prop :=
  operation.Ensures rule state world fun result state world =>
    match result with
    | .ok value => post value state world
    | .error _ => True

theorem EnsuresOk.mono {operation : Operation τ α} {post post' : α → τ → σ → Prop}
    (ensures : operation.EnsuresOk rule state world post)
    (weaker : ∀ value state world, post value state world → post' value state world) :
    operation.EnsuresOk rule state world post' := by
  refine Ensures.mono ensures ?_
  rintro (error | value) state world holds
  · trivial
  · exact weaker value state world holds

theorem EnsuresOk.bind {operation : Operation τ α} {next : α → Operation τ β}
    {post : β → τ → σ → Prop}
    (first : operation.EnsuresOk rule state world fun value state world =>
      (next value).EnsuresOk rule state world post) :
    (operation >>= next).EnsuresOk rule state world post := by
  refine (ensures_bind operation next).2 (Ensures.mono first ?_)
  rintro (error | value) state world holds
  · trivial
  · exact holds

theorem EnsuresOk.pure {value : α} {post : α → τ → σ → Prop} (holds : post value state world) :
    (pure value : Operation τ α).EnsuresOk rule state world post :=
  (ensures_pure value).2 holds

theorem EnsuresOk.get {post : τ → τ → σ → Prop} (holds : post state state world) :
    (get : Operation τ τ).EnsuresOk rule state world post :=
  ensures_get.2 holds

theorem EnsuresOk.and {operation : Operation τ α} {post : α → τ → σ → Prop}
    {other : Except DebugError α → τ → σ → Prop}
    (first : operation.EnsuresOk rule state world post)
    (second : operation.Ensures rule state world other) :
    operation.EnsuresOk rule state world fun value state world =>
      post value state world ∧ other (.ok value) state world := by
  refine (Ensures.and first second).mono ?_
  rintro (error | value) state world holds
  · trivial
  · exact holds

/-! ## Operations that leave the state as it is -/

/-- The operation comes to an end and leaves its state as it was. -/
def Still (rule : AnswerRule σ) (operation : Operation τ α) : Prop :=
  ∀ state world, operation.Ensures rule state world fun _ state' _ => state' = state

theorem Still.pure (value : α) : Still rule (pure value : Operation τ α) :=
  fun _ _ => (ensures_pure _).2 rfl

theorem Still.throw (error : DebugError) : Still rule (throw error : Operation τ α) :=
  fun _ _ => (ensures_throw _).2 rfl

theorem Still.get : Still rule (get : Operation τ τ) := fun _ _ => ensures_get.2 rfl

theorem Still.ask (request : Request) :
    Still rule (ask request : Operation τ request.Answer) := fun _ _ => ensures_ask.2 rfl

theorem Still.bind {operation : Operation τ α} {next : α → Operation τ β}
    (first : Still rule operation) (rest : ∀ value, Still rule (next value)) :
    Still rule (operation >>= next) := by
  intro state world
  refine (ensures_bind operation next).2 ((first state world).mono ?_)
  rintro (error | value) state' world' rfl
  · rfl
  · exact rest value state' world'

theorem Still.attempt (command : Command) : Still rule (attempt command : Operation τ _) := by
  refine (Still.ask _).bind fun answer => ?_
  split
  · exact .pure _
  · exact .pure _
  · exact .throw _

theorem Still.forIn {entries : List β} {start : α}
    {body : β → α → Operation τ (ForInStep α)}
    (still : ∀ entry value, Still rule (body entry value)) :
    Still rule (forIn entries start body) := by
  induction entries generalizing start with
  | nil => exact .pure _
  | cons entry rest ih =>
      rw [List.forIn_cons]
      refine (still entry start).bind fun step => ?_
      cases step with
      | done value => exact .pure _
      | yield value => exact ih

/-- What comes after such an operation starts from the same state. -/
theorem Still.bindOk {operation : Operation τ α} {next : α → Operation τ β}
    {post : β → τ → σ → Prop} (first : Still rule operation)
    (rest : ∀ value world, (next value).EnsuresOk rule state world post) :
    (operation >>= next).EnsuresOk rule state world post := by
  refine EnsuresOk.bind ((first state world).mono ?_)
  rintro (error | value) state' world' rfl
  · trivial
  · exact rest value world'

/-! ## What a run may leave -/

/-- If the operation comes to an end, something holds of its result and of the states that are
left. -/
def Leaves (rule : AnswerRule σ) (operation : Operation τ α) (state : τ) (world : σ)
    (post : Except DebugError α → τ → σ → Prop) : Prop :=
  ∀ result state' world',
    (operation.run.run state).run rule world = (some (result, state'), world') →
      post result state' world'

theorem Ensures.leaves {operation : Operation τ α}
    (ensures : operation.Ensures rule state world post) :
    operation.Leaves rule state world post :=
  fun _ _ _ run => ensures.of_run run

theorem Leaves.mono {operation : Operation τ α} (leaves : operation.Leaves rule state world post)
    (weaker : ∀ result state world, post result state world → post' result state world) :
    operation.Leaves rule state world post' :=
  fun result state' world' run => weaker result state' world' (leaves result state' world' run)

/-- What is left by an operation that goes on after another one, whatever becomes of that. -/
theorem Leaves.andThen {whole : Operation υ β} {state' : υ}
    {post : Except DebugError β → υ → σ → Prop} {operation : Operation τ α}
    (next : Except DebugError α → τ → Talk (Except DebugError β × υ))
    (first : operation.Leaves rule state world fun result state world =>
      ∀ last after afterWorld,
        (next result state).run rule world = (some (last, after), afterWorld) →
          post last after afterWorld)
    (run : whole.run.run state' =
      (operation.run.run state).andThen fun entry => next entry.1 entry.2) :
    whole.Leaves rule state' world post := by
  intro last after afterWorld ended
  rw [run, Talk.run_andThen] at ended
  split at ended
  · next entry between ran => exact first entry.1 entry.2 between ran last after afterWorld ended
  · cases ended

theorem Leaves.bind {post : Except DebugError β → τ → σ → Prop} {operation : Operation τ α}
    {next : α → Operation τ β}
    (first : operation.Leaves rule state world fun result state world =>
      match result with
      | .ok value => (next value).Leaves rule state world post
      | .error error => post (.error error) state world) :
    (operation >>= next).Leaves rule state world post := by
  refine Leaves.andThen (ExceptT.bindCont next) (first.mono ?_) rfl
  rintro (error | value) state world holds last after afterWorld ended
  · cases ended
    exact holds
  · exact holds last after afterWorld ended

theorem Leaves.tryCatch {operation : Operation τ α} {handle : DebugError → Operation τ α}
    (first : operation.Leaves rule state world fun result state world =>
      match result with
      | .ok value => post (.ok value) state world
      | .error error => (handle error).Leaves rule state world post) :
    (tryCatch operation handle).Leaves rule state world post := by
  refine Leaves.andThen (catchCont handle) (first.mono ?_) (run_tryCatch operation handle)
  rintro (error | value) state world holds last after afterWorld ended
  · exact holds last after afterWorld ended
  · cases ended
    exact holds

/-! ## Operations that may go on for ever -/

/-- Something holds of what comes of an operation and of the state that the surroundings are left
in, whether the operation comes to an end or not. -/
def Gives (rule : AnswerRule σ) (operation : Operation τ α) (state : τ) (world : σ)
    (post : Option (Except DebugError α × τ) → σ → Prop) : Prop :=
  post ((operation.run.run state).run rule world).1 ((operation.run.run state).run rule world).2

theorem Gives.mono {operation : Operation τ α}
    {post post' : Option (Except DebugError α × τ) → σ → Prop}
    (gives : operation.Gives rule state world post)
    (weaker : ∀ outcome world, post outcome world → post' outcome world) :
    operation.Gives rule state world post' := weaker _ _ gives

theorem gives_stuck {post : Option (Except DebugError α × τ) → σ → Prop}
    (holds : post none world) : Gives rule (stuck : Operation τ α) state world post := holds

theorem Ensures.gives {operation : Operation τ α}
    {post : Option (Except DebugError α × τ) → σ → Prop}
    (ensures : operation.Ensures rule state world fun result state world =>
      post (some (result, state)) world) : operation.Gives rule state world post := by
  obtain ⟨result, state', world', run, holds⟩ := ensures
  rw [Gives, run]
  exact holds

theorem Ensures.gives_bind {operation : Operation τ α} {next : α → Operation τ β}
    {post : Option (Except DebugError β × τ) → σ → Prop}
    (first : operation.Ensures rule state world fun result state world =>
      match result with
      | .ok value => (next value).Gives rule state world post
      | .error error => post (some (.error error, state)) world) :
    (operation >>= next).Gives rule state world post := by
  obtain ⟨result, state', world', run, holds⟩ := first
  have whole : (operation >>= next).run.run state =
      (operation.run.run state).andThen fun entry => ExceptT.bindCont next entry.1 entry.2 := rfl
  rw [Gives, whole, Talk.run_andThen, run]
  cases result <;> exact holds

/-- What comes of an operation is left by it if it comes to an end. -/
theorem Gives.leaves {operation : Operation τ α}
    {post : Option (Except DebugError α × τ) → σ → Prop}
    (gives : operation.Gives rule state world post) :
    operation.Leaves rule state world fun result state world =>
      post (some (result, state)) world := by
  intro result after last run
  rw [Gives, run] at gives
  exact gives

end Operation

/-- The rule with a list of all requests that have been made. -/
def AnswerRule.logged (rule : AnswerRule σ) : AnswerRule (σ × List Request) :=
  fun request world =>
    ((rule request world.1).1, (rule request world.1).2, world.2 ++ [request])

end DebugBridge
