import DebugBridge.Debugger.Connection
import DebugBridge.Proofs.Debugger.Replacement
import DebugBridge.Proofs.File.Path

/-!
# Breakpoints of the settings

When an engine is connected, the entries of the settings for lines are set file by file, where
paths of the same components are one file.  Each file's breakpoints replace those that are in the
same file in a wider sense, in which neither separators nor the case of letters count.  So an entry
is lost exactly if a later file is spelled otherwise but is the same in that sense, and all are kept
exactly if no entry is lost in this way.
-/

namespace DebugBridge

variable {σ α : Type} {rule : AnswerRule σ}

namespace Debugger

open Operation BreakpointTable

/-! ## Entries by file -/

/-- Requests by file. -/
abbrev Groups := List (String × List BreakpointRequest)

/-- All requests, file by file. -/
def requestsOf (groups : Groups) : List BreakpointRequest := groups.flatMap Prod.snd

theorem requestsOf_addToGroup (file : String) (request : BreakpointRequest) (groups : Groups) :
    (requestsOf (addToGroup file request groups)).Perm (request :: requestsOf groups) := by
  induction groups with
  | nil => exact .refl _
  | cons group rest ih =>
      unfold addToGroup
      split
      · exact .refl _
      · simp only [requestsOf, List.flatMap_cons, List.append_assoc, List.singleton_append]
        exact List.perm_middle
      · exact (ih.append_left group.2).trans List.perm_middle

/-- No entry is lost or made up when the entries are put together by file. -/
theorem requestsOf_lineGroups (entries : List LineEntry) :
    (requestsOf (lineGroups entries)).Perm (entries.map lineRequest) := by
  have all : ∀ groups : Groups, (requestsOf (entries.foldl
      (fun groups entry => addToGroup entry.file (lineRequest entry) groups) groups)).Perm
      (entries.map lineRequest ++ requestsOf groups) := by
    induction entries with
    | nil => exact fun groups => .refl _
    | cons entry rest ih =>
        intro groups
        refine (ih _).trans (.trans ?_ List.perm_middle)
        exact (requestsOf_addToGroup _ _ _).append_left _
  exact (all []).trans (.of_eq (List.append_nil _))

theorem target_lineRequest (entry : LineEntry) :
    (lineRequest entry).target = .line entry.file entry.line none entry.logMessage := by
  obtain ⟨file, line, condition, hitCondition, logMessage⟩ := entry
  cases condition <;> cases hitCondition <;> cases logMessage <;> rfl

theorem target_functionRequest (entry : FunctionEntry) :
    (functionRequest entry).target = .function entry.name entry.onReturn := by
  obtain ⟨name, condition, hitCondition, onReturn⟩ := entry
  cases condition <;> cases hitCondition <;> rfl

/-- Where the groups after an entry was added come from. -/
theorem mem_addToGroup {file : String} {request : BreakpointRequest} {groups : Groups}
    {group : String × List BreakpointRequest}
    (member : group ∈ addToGroup file request groups) :
    group = (file, [request]) ∨ group ∈ groups ∨
      ∃ old ∈ groups, Path.order file old.1 = .eq ∧ group = (old.1, old.2 ++ [request]) := by
  induction groups with
  | nil => exact .inl (List.mem_singleton.1 member)
  | cons first rest ih =>
      unfold addToGroup at member
      split at member
      · rcases List.mem_cons.1 member with new | old
        · exact .inl new
        · exact .inr (.inl old)
      · next same =>
          rcases List.mem_cons.1 member with new | old
          · exact .inr (.inr ⟨first, List.mem_cons_self, same, new⟩)
          · exact .inr (.inl (List.mem_cons_of_mem _ old))
      · rcases List.mem_cons.1 member with here | later
        · exact .inr (.inl (here ▸ List.mem_cons_self))
        · rcases ih later with new | old | ⟨old, place, same, grown⟩
          · exact .inl new
          · exact .inr (.inl (List.mem_cons_of_mem _ old))
          · exact .inr (.inr ⟨old, List.mem_cons_of_mem _ place, same, grown⟩)

/-- The groups are in the order of their files, and each is made of entries for its file. -/
structure Grouped (entries : List LineEntry) (groups : Groups) : Prop where
  sorted : groups.Pairwise fun group later => Path.order group.1 later.1 = .lt
  file_mem : ∀ group ∈ groups, ∃ entry ∈ entries, entry.file = group.1
  request_mem : ∀ group ∈ groups, ∀ request ∈ group.2, ∃ entry ∈ entries,
    request = lineRequest entry ∧ Path.order entry.file group.1 = .eq

theorem sorted_addToGroup {groups : Groups} (file : String) (request : BreakpointRequest)
    (sorted : groups.Pairwise fun group later => Path.order group.1 later.1 = .lt) :
    (addToGroup file request groups).Pairwise
      fun group later => Path.order group.1 later.1 = .lt := by
  induction groups with
  | nil => exact List.pairwise_singleton _ _
  | cons first rest ih =>
      have parts := List.pairwise_cons.1 sorted
      unfold addToGroup
      split
      · next before =>
          refine List.pairwise_cons.2 ⟨?_, sorted⟩
          rintro later (_ | ⟨_, member⟩)
          · exact before
          · exact Std.TransCmp.lt_trans before (parts.1 later member)
      · exact List.pairwise_cons.2 ⟨parts.1, parts.2⟩
      · next after =>
          refine List.pairwise_cons.2 ⟨?_, ih parts.2⟩
          intro later member
          rcases mem_addToGroup member with rfl | old | ⟨old, place, same, rfl⟩
          · exact Std.OrientedCmp.gt_iff_lt.1 after
          · exact parts.1 later old
          · exact parts.1 old place

theorem Grouped.add {entries : List LineEntry} {groups : Groups} (grouped : Grouped entries groups)
    (entry : LineEntry) :
    Grouped (entries ++ [entry]) (addToGroup entry.file (lineRequest entry) groups) := by
  have more {old : LineEntry} (member : old ∈ entries) : old ∈ entries ++ [entry] :=
    List.mem_append_left _ member
  have last : entry ∈ entries ++ [entry] := List.mem_append_right _ (List.mem_singleton_self _)
  refine ⟨sorted_addToGroup _ _ grouped.sorted, ?_, ?_⟩
  · intro group member
    rcases mem_addToGroup member with rfl | old | ⟨old, place, same, rfl⟩
    · exact ⟨entry, last, rfl⟩
    · obtain ⟨other, known, file⟩ := grouped.file_mem group old
      exact ⟨other, more known, file⟩
    · obtain ⟨other, known, file⟩ := grouped.file_mem old place
      exact ⟨other, more known, file⟩
  · intro group member request wanted
    rcases mem_addToGroup member with rfl | old | ⟨old, place, same, rfl⟩
    · exact ⟨entry, last, List.mem_singleton.1 wanted, Std.ReflCmp.compare_self⟩
    · obtain ⟨other, known, facts⟩ := grouped.request_mem group old request wanted
      exact ⟨other, more known, facts⟩
    · rcases List.mem_append.1 wanted with earlier | new
      · obtain ⟨other, known, facts⟩ := grouped.request_mem old place request earlier
        exact ⟨other, more known, facts⟩
      · exact ⟨entry, last, List.mem_singleton.1 new, same⟩

theorem grouped_lineGroups (entries : List LineEntry) : Grouped entries (lineGroups entries) := by
  have all : ∀ (before : List LineEntry) (groups : Groups), Grouped before groups →
      Grouped (before ++ entries) (entries.foldl
        (fun groups entry => addToGroup entry.file (lineRequest entry) groups) groups) := by
    induction entries with
    | nil => exact fun before groups grouped => (List.append_nil before).symm ▸ grouped
    | cons entry rest ih =>
        intro before groups grouped
        have grown := ih _ _ (grouped.add entry)
        rwa [List.append_assoc, List.singleton_append] at grown
  exact all [] [] ⟨.nil, nofun, nofun⟩

/-! ## Entries that are left -/

/-- Whether a request is in none of some files. -/
def isApart (request : BreakpointRequest) (groups : Groups) : Bool :=
  groups.all fun group => !request.isIn group.1

/-- The requests that are left when one file after the other has been set: those that are in no
later file. -/
def survivors : Groups → List BreakpointRequest
  | [] => []
  | (_, requests) :: rest => requests.filter (isApart · rest) ++ survivors rest

theorem survivors_sublist (groups : Groups) : (survivors groups).Sublist (requestsOf groups) := by
  induction groups with
  | nil => exact .refl _
  | cons group rest ih => exact List.filter_sublist.append ih

/-- All requests are left exactly if each is in no later file. -/
theorem survivors_perm_iff (groups : Groups) :
    (survivors groups).Perm (requestsOf groups) ↔
      groups.Pairwise fun group later => ∀ request ∈ group.2, request.isIn later.1 = false := by
  induction groups with
  | nil => exact iff_of_true (.refl _) .nil
  | cons group rest ih =>
      rw [List.pairwise_cons, ← ih]
      have apart : (group.2.filter (isApart · rest) = group.2) ↔
          ∀ later ∈ rest, ∀ request ∈ group.2, request.isIn later.1 = false := by
        simp only [List.filter_eq_self, isApart, List.all_eq_true, Bool.not_eq_true']
        exact ⟨fun all later place request member => all request member later place,
          fun all request member later place => all later place request member⟩
      rw [← apart]
      constructor
      · intro perm
        have equal : group.2.filter (isApart · rest) ++ survivors rest =
            group.2 ++ requestsOf rest :=
          (survivors_sublist (group :: rest)).eq_of_length perm.length_eq
        have here := List.length_filter_le (isApart · rest) group.2
        have later := (survivors_sublist rest).length_le
        have total := congrArg List.length equal
        rw [List.length_append, List.length_append] at total
        obtain ⟨kept, others⟩ := List.append_inj equal (by omega)
        exact ⟨kept, .of_eq others⟩
      · rintro ⟨kept, others⟩
        exact (List.Perm.of_eq kept).append others

/-- Where only paths of the same components are the same file, no group removes another. -/
theorem apart_of_sameFile {entries : List LineEntry}
    (same : ∀ entry ∈ entries, ∀ other ∈ entries, Path.sameFile entry.file other.file = true →
      Path.order entry.file other.file = .eq) :
    (lineGroups entries).Pairwise
      fun group later => ∀ request ∈ group.2, request.isIn later.1 = false := by
  have grouped := grouped_lineGroups entries
  refine (List.Pairwise.and_mem.1 grouped.sorted).imp ?_
  rintro group later ⟨first, second, before⟩ request wanted
  obtain ⟨entry, known, rfl, here⟩ := grouped.request_mem group first request wanted
  obtain ⟨other, found, file⟩ := grouped.file_mem later second
  rw [BreakpointRequest.isIn, target_lineRequest, Bool.eq_false_iff]
  intro equal
  have there := same entry known other found (file ▸ equal)
  rw [file, Std.TransCmp.congr_left here, before] at there
  cases there

/-! ## Setting them -/

variable {context : ScriptContext} {table : BreakpointTable} {world : σ}

/-- Setting one file after the other. -/
theorem seedLines_requests (numbered : Numbered table) (groups : Groups)
    (ordinary : ∀ request ∈ requestsOf groups, request.target ≠ .exception) :
    (seedLines context groups).EnsuresOk rule table world fun _ table' _ =>
      table'.requests = table.requests.filter (isApart · groups) ++ survivors groups := by
  induction groups generalizing table world with
  | nil => exact EnsuresOk.pure (by simp [isApart, survivors])
  | cons group rest ih =>
      obtain ⟨file, requests⟩ := group
      rw [requestsOf, List.flatMap_cons, List.forall_mem_append] at ordinary
      refine EnsuresOk.bind (EnsuresOk.mono ((setLines_requests numbered file requests
        ordinary.1).and ((moving_setLines context file requests).numbered numbered)) ?_)
      rintro set between middle ⟨first, numbered⟩
      refine EnsuresOk.bind (EnsuresOk.mono (ih numbered ordinary.2) ?_)
      intro others after last more
      refine EnsuresOk.pure ?_
      rw [more, first, List.filter_append, List.filter_filter, survivors, List.append_assoc]
      congr 2
      funext request
      simp [isApart, Bool.and_comm]

/-- What is wanted on exceptions by the settings. -/
def exceptionRequests (config : DebugConfig) : List BreakpointRequest :=
  if config.breakOnException then [.plain .exception] else []

theorem exception?_eq_none (unwanted : ∀ request ∈ table.requests, request.target ≠ .exception) :
    table.exception? = none := by
  rw [exception?, List.find?_eq_none]
  intro breakpoint member exception
  apply unwanted breakpoint.request (List.mem_map_of_mem member)
  rw [Breakpoint.request, beq_iff_eq.1 exception, BreakpointKind.target]

theorem setException_requests
    (unwanted : ∀ request ∈ table.requests, request.target ≠ .exception) :
    (setException context true).EnsuresOk rule table world fun _ table' _ =>
      table'.requests = table.requests ++ [.plain .exception] := by
  have new := exception?_eq_none unwanted
  refine EnsuresOk.bind (EnsuresOk.get ?_)
  rw [new]
  exact EnsuresOk.bind (EnsuresOk.mono (setBreakpoint_requests _ fun _ => new)
    fun _ _ _ set => EnsuresOk.pure set)

theorem seed_requests (config : DebugConfig) :
    (seed context config).EnsuresOk rule .empty world fun _ table' _ =>
      table'.requests = survivors (lineGroups config.breakpoints) ++
        config.functionBreakpoints.map functionRequest ++ exceptionRequests config := by
  have lines : ∀ request ∈ requestsOf (lineGroups config.breakpoints),
      request.target ≠ .exception := by
    intro request member
    obtain ⟨entry, -, rfl⟩ := List.mem_map.1 ((requestsOf_lineGroups _).mem_iff.1 member)
    rw [target_lineRequest]
    nofun
  have functions : ∀ request ∈ config.functionBreakpoints.map functionRequest,
      request.target ≠ .exception := by
    intro request member
    obtain ⟨entry, -, rfl⟩ := List.mem_map.1 member
    rw [target_functionRequest]
    nofun
  refine EnsuresOk.bind (EnsuresOk.mono (seedLines_requests numbered_empty _ lines) ?_)
  intro set table world first
  rw [show empty.requests = [] from rfl, List.filter_nil, List.nil_append] at first
  refine EnsuresOk.bind (EnsuresOk.mono (setAll_requests _ functions) ?_)
  intro set table world second
  rw [first] at second
  have ordinary : ∀ request ∈ table.requests, request.target ≠ .exception := by
    rw [second, List.forall_mem_append]
    exact ⟨fun request member => lines request ((survivors_sublist _).mem member), functions⟩
  unfold exceptionRequests
  split
  · refine EnsuresOk.bind (EnsuresOk.mono (setException_requests ordinary) ?_)
    intro set table world third
    exact EnsuresOk.pure (second ▸ third)
  · exact EnsuresOk.bind (EnsuresOk.pure (EnsuresOk.pure (by rw [second, List.append_nil])))

/-! ## Connecting -/

@[simp]
theorem ensures_onLink {post : Except DebugError α → Debugger → σ → Prop} {debugger : Debugger}
    (link : Link) (operation : LinkOperation α) :
    (onLink link operation).Ensures rule debugger world post ↔
      operation.Ensures rule link world fun result link world =>
        post result { debugger with link := some link } world := by
  rw [ensures_andThen operation link
    (fun result link => .done (result, { debugger with link := some link })) rfl]
  exact ensures_congr fun _ _ _ => run_done_iff

theorem still_query : Still rule (EngineFeatures.query : Operation Link EngineFeatures) := by
  have value (name : String) :
      Still rule (EngineFeatures.featureValue? name : Operation Link (Option String)) := by
    refine (Still.attempt _).bind fun reply => ?_
    split <;> exact .pure _
  exact (value _).bind fun _ => (value _).bind fun _ => (value _).bind fun _ => .pure _

theorem still_prepare (commands : List Command) :
    Still rule (prepare commands : DebuggerOperation Unit) := by
  induction commands with
  | nil => exact .pure _
  | cons command rest ih =>
      refine (Still.ask _).bind fun (answer : Except SessionError Response) => ?_
      cases answer with
      | ok response => exact ih
      | error error => exact (Still.ask _).bind fun _ => ih

theorem knownLink_ok {debugger : Debugger} {link : Link} (linked : debugger.link = some link)
    {post : Link → Debugger → σ → Prop} (holds : post link debugger world) :
    knownLink.EnsuresOk rule debugger world post := by
  refine EnsuresOk.bind (EnsuresOk.get ?_)
  rw [linked]
  exact EnsuresOk.pure holds

/-- Preparing an engine, if it succeeds, leaves the breakpoints that are left of the settings. -/
theorem negotiate_requests {debugger : Debugger} {link : Link}
    (linked : debugger.link = some link) (fresh : link.breakpoints = .empty) :
    negotiate.EnsuresOk rule debugger world fun _ after _ =>
      after.breakpoints.map Breakpoint.request =
        survivors (lineGroups debugger.config.breakpoints) ++
          debugger.config.functionBreakpoints.map functionRequest ++
          exceptionRequests debugger.config := by
  obtain ⟨config, host, phase, known⟩ := debugger
  cases linked
  refine EnsuresOk.bind (EnsuresOk.get ?_)
  refine EnsuresOk.bind (knownLink_ok rfl (EnsuresOk.bind ((ensures_onLink _ _).2 ?_)))
  refine (still_query link world).mono ?_
  rintro (error | features) link world rfl
  · trivial
  refine EnsuresOk.bind (knownLink_ok rfl (EnsuresOk.bind ((ensures_onLink _ _).2 ?_)))
  refine (ensures_modify _).2 ?_
  have prepared : ∀ world, EnsuresOk rule
      (do
        prepare (setupCommands config)
        if ← Operation.ask .isClosed then throw (.session .closed)
        let seeded ← onLink (← knownLink)
          (Link.onBreakpoints (seed (Debugger.script ⟨config, host, phase, some link⟩) config))
        for breakpoint in seeded do
          if !breakpoint.verified then Operation.report (.warning (unsetWarning breakpoint)) :
        DebuggerOperation Unit)
      { config, host, phase, link := some { link with features } } world fun _ after _ =>
        after.breakpoints.map Breakpoint.request =
          survivors (lineGroups config.breakpoints) ++
            config.functionBreakpoints.map functionRequest ++ exceptionRequests config := by
    intro world
    refine (still_prepare _).bindOk fun _ world => (Still.ask _).bindOk fun closed world => ?_
    split
    · exact EnsuresOk.bind ((ensures_throw _).2 trivial)
    · refine EnsuresOk.bind (knownLink_ok rfl (EnsuresOk.bind ((ensures_onLink _ _).2 ?_)))
      refine (ensures_within _ _ _).2 ?_
      rw [fresh]
      refine (seed_requests config).mono fun seeded table world stored => ?_
      refine Still.bindOk (Still.forIn fun breakpoint _ => ?_) fun _ _ => EnsuresOk.pure stored
      split
      · exact (Still.ask _).bind fun _ => .pure _
      · exact .pure _
  dsimp only
  split
  · exact (Still.ask _).bindOk fun _ world => prepared world
  · exact prepared world

/-- What is wanted by the settings, entry by entry. -/
def wantedRequests (config : DebugConfig) : List BreakpointRequest :=
  config.breakpoints.map lineRequest ++ config.functionBreakpoints.map functionRequest ++
    exceptionRequests config

/-- Once an engine has been prepared, the breakpoints are those of the settings, except for entries
for lines that are in a file set later.  They are one for each entry exactly if there are no such
entries, as where only paths of the same components are the same file. -/
theorem breakpoints_of_negotiate {debugger : Debugger} {link : Link}
    (linked : debugger.link = some link) (fresh : link.breakpoints = .empty) :
    negotiate.EnsuresOk rule debugger world fun _ after _ =>
      after.breakpoints.map Breakpoint.request =
          survivors (lineGroups debugger.config.breakpoints) ++
            debugger.config.functionBreakpoints.map functionRequest ++
            exceptionRequests debugger.config ∧
        ((after.breakpoints.map Breakpoint.request).Perm (wantedRequests debugger.config) ↔
          (lineGroups debugger.config.breakpoints).Pairwise
            fun group later => ∀ request ∈ group.2, request.isIn later.1 = false) ∧
        ((∀ entry ∈ debugger.config.breakpoints, ∀ other ∈ debugger.config.breakpoints,
            Path.sameFile entry.file other.file = true →
              Path.order entry.file other.file = .eq) →
          (after.breakpoints.map Breakpoint.request).Perm (wantedRequests debugger.config)) := by
  refine (negotiate_requests linked fresh).mono fun _ after _ left => ?_
  have kept : (after.breakpoints.map Breakpoint.request).Perm (wantedRequests debugger.config) ↔
      (lineGroups debugger.config.breakpoints).Pairwise
        fun group later => ∀ request ∈ group.2, request.isIn later.1 = false := by
    rw [left, wantedRequests, List.perm_append_right_iff, List.perm_append_right_iff,
      ← survivors_perm_iff]
    have entries := requestsOf_lineGroups debugger.config.breakpoints
    exact ⟨fun perm => perm.trans entries.symm, fun perm => perm.trans entries⟩
  exact ⟨left, kept, fun same => kept.2 (apart_of_sameFile same)⟩

/-- A debugger that is connected to an engine, before this has been prepared. -/
def connectedTo (link : Link) (entries : List LineEntry) : Debugger :=
  { config := { DebugConfig.forProgram "main.ahk" with
      breakpoints := entries, breakOnException := true
      functionBreakpoints := [{ name := "Greet", condition := none, hitCondition := none
                                onReturn := true }] }
    host := { files := { entries := [], workingPlace := [] }, environment := { bindings := [] } }
    phase := .connected .starting, link := some link }

/-- What is known of an engine that has only greeted. -/
def greeted : Link :=
  { mode := .attach, launched := false, features := .unknown, breakpoints := .empty
    frameNumbers := .empty, scopeNumbers := .empty, lastStop := none
    init := { appId := "", ideKey := "", session := "", thread := "", parent := "", language := ""
              protocolVersion := "", fileUri := "" } }

/-- An engine that refuses every command. -/
def refusing : AnswerRule Unit := .ofEngine fun command world =>
  (.error (.engine { command := command.name, code := EngineError.unimplemented, text := "no" }),
    world)

/-- An entry for a line without conditions. -/
def plainEntry (file : String) (line : Nat) : LineEntry :=
  { file, line, condition := none, hitCondition := none, logMessage := none }

/-- Preparing an engine for entries, with whether it succeeds and what is wanted of the breakpoints
that are left. -/
def seeding (entries : List LineEntry) : Option (Option Unit × List BreakpointRequest) :=
  ((negotiate.run.run (connectedTo greeted entries)).run refusing ()).1.map fun ended =>
    (ended.1.toOption, ended.2.breakpoints.map Breakpoint.request)

/-- Two files whose names are not the same. -/
theorem breakpoints_of_negotiate_apart :
    (seeding [plainEntry "main.ahk" 1, plainEntry "lib.ahk" 2]).map Prod.fst = some (some ()) ∧
      negotiate.EnsuresOk refusing
        (connectedTo greeted [plainEntry "main.ahk" 1, plainEntry "lib.ahk" 2]) ()
        fun _ after _ => (after.breakpoints.map Breakpoint.request).Perm
          (wantedRequests (connectedTo greeted
            [plainEntry "main.ahk" 1, plainEntry "lib.ahk" 2]).config) :=
  ⟨by decide +kernel,
    (breakpoints_of_negotiate rfl rfl).mono fun _ _ _ left => left.2.2 (by decide +kernel)⟩

/-- Two spellings of one file: only the entry that is set later is left. -/
theorem seeding_spellings :
    seeding [plainEntry "main.ahk" 1, plainEntry "MAIN.ahk" 2] =
        some (some (), [.line "main.ahk" 1, .function "Greet" true, .plain .exception]) ∧
      ¬[BreakpointRequest.line "main.ahk" 1, .function "Greet" true, .plain .exception].Perm
        (wantedRequests (connectedTo greeted
          [plainEntry "main.ahk" 1, plainEntry "MAIN.ahk" 2]).config) :=
  ⟨by decide +kernel, by decide +kernel⟩

end Debugger
end DebugBridge
