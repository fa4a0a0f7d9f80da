import DebugBridge.Proofs.Debugger.Table

/-!
# What is recorded after a call

A recorded breakpoint tells what was wanted of it, whatever the engine made of it.  A call that
succeeds therefore does to the list of what was wanted just what it says: one that sets adds to
the end, and one that removes leaves the others in their order.
-/

namespace DebugBridge

variable {σ : Type} {rule : AnswerRule σ}

namespace BreakpointRequest

/-- Whether a breakpoint on a line of a file is wanted. -/
def isIn (request : BreakpointRequest) (file : String) : Bool :=
  match request.target with
  | .line other _ _ _ => Path.sameFile other file
  | _ => false

end BreakpointRequest

namespace BreakpointKind

/-- What a breakpoint was wanted to be bound to. -/
def target : BreakpointKind → BreakpointTarget
  | .line target => .line target.file target.requestedLine target.column none
  | .log target message => .line target.file target.requestedLine target.column (some message)
  | .function target => .function target.name false
  | .return target => .function target.name true
  | .exception => .exception

@[simp]
theorem target_unverified (kind : BreakpointKind) : kind.unverified.target = kind.target := by
  cases kind <;> rfl

@[simp]
theorem target_movedTo (kind : BreakpointKind) (line : Nat) :
    (kind.movedTo line).target = kind.target := by
  cases kind with
  | line bound | log bound message =>
      simp only [movedTo, LineTarget.movedTo]
      split <;> rfl
  | function | «return» | exception => rfl

end BreakpointKind

namespace Breakpoint

/-- What was wanted of a breakpoint. -/
def request (breakpoint : Breakpoint) : BreakpointRequest :=
  { target := breakpoint.kind.target, condition := breakpoint.condition
    hitCondition := breakpoint.hitCondition, temporary := breakpoint.temporary
    enabled := breakpoint.enabled }

theorem isIn_request (breakpoint : Breakpoint) (file : String) :
    breakpoint.request.isIn file = breakpoint.kind.isIn file := by
  rw [request]
  cases breakpoint.kind <;> rfl

@[simp]
theorem request_rejected (breakpoint : Breakpoint) (reason : String) :
    (breakpoint.rejected reason).request = breakpoint.request := by
  simp [request, rejected]

@[simp]
theorem request_taken (breakpoint : Breakpoint) (engineId : Nat) (line : Option Nat) :
    (breakpoint.taken engineId line).request = breakpoint.request := by
  cases line <;> simp [request, taken]

/-- Whatever the engine makes of a breakpoint, it stays what was wanted. -/
theorem request_of_offered {breakpoint result : Breakpoint} {world after : σ}
    (offered : Offered rule breakpoint world (.ok result) after) :
    result.request = breakpoint.request := by
  cases offered with
  | unplaced => rfl
  | unsaid | refused | unnumbered => exact request_rejected _ _
  | taken => exact request_taken _ _ _

end Breakpoint

namespace BreakpointTable

open Operation Breakpoint

variable {context : ScriptContext} {table : BreakpointTable} {world : σ}

/-- What was wanted of the recorded breakpoints. -/
def requests (table : BreakpointTable) : List BreakpointRequest :=
  table.breakpoints.map Breakpoint.request

theorem request_draft (request : BreakpointRequest) (id : Nat) :
    (draft context request id).request = request := by
  obtain ⟨target, condition, hitCondition, temporary, enabled⟩ := request
  rcases target with ⟨file, line, column, _ | message⟩ | ⟨name, _ | _⟩ | _ <;> rfl

/-- A breakpoint that is set comes last; the one on exceptions is not set twice. -/
theorem setBreakpoint_breakpoints (request : BreakpointRequest)
    (new : request.target = .exception → table.exception? = none) :
    (setBreakpoint context request).EnsuresOk rule table world fun breakpoint table' _ =>
      table'.breakpoints = table.breakpoints ++ [breakpoint] ∧ breakpoint.request = request := by
  refine EnsuresOk.bind (EnsuresOk.get ?_)
  split
  · next existing found =>
      split at found
      · next exception =>
          rw [new (beq_iff_eq.1 exception)] at found
          cases found
      · cases found
  · refine Ensures.mono (create_spec request) ?_
    rintro (error | breakpoint) table' world' created
    · trivial
    · cases created with
      | made offered => exact ⟨rfl, (request_of_offered offered).trans (request_draft _ _)⟩

theorem setAll_breakpoints (wanted : List BreakpointRequest)
    (ordinary : ∀ request ∈ wanted, request.target ≠ .exception) :
    (setAll context wanted).EnsuresOk rule table world fun set table' _ =>
      table'.breakpoints = table.breakpoints ++ set ∧ set.map Breakpoint.request = wanted := by
  induction wanted generalizing table world with
  | nil => exact EnsuresOk.pure ⟨(List.append_nil _).symm, rfl⟩
  | cons request rest ih =>
      rw [List.forall_mem_cons] at ordinary
      refine EnsuresOk.bind (EnsuresOk.mono (setBreakpoint_breakpoints request
        fun exception => absurd exception ordinary.1) ?_)
      intro breakpoint between middle ⟨first, same⟩
      refine EnsuresOk.bind (EnsuresOk.mono (ih ordinary.2) ?_)
      intro set after last ⟨more, others⟩
      rw [first, List.append_assoc, List.singleton_append] at more
      exact EnsuresOk.pure ⟨more, congrArg₂ List.cons same others⟩

theorem setBreakpoint_requests (request : BreakpointRequest)
    (new : request.target = .exception → table.exception? = none) :
    (setBreakpoint context request).EnsuresOk rule table world fun _ table' _ =>
      table'.requests = table.requests ++ [request] := by
  refine EnsuresOk.mono (setBreakpoint_breakpoints request new) ?_
  rintro breakpoint table' _ ⟨recorded, rfl⟩
  rw [requests, recorded, List.map_append, List.map_singleton, requests]

theorem setAll_requests (wanted : List BreakpointRequest)
    (ordinary : ∀ request ∈ wanted, request.target ≠ .exception) :
    (setAll context wanted).EnsuresOk rule table world fun _ table' _ =>
      table'.requests = table.requests ++ wanted := by
  refine EnsuresOk.mono (setAll_breakpoints wanted ordinary) ?_
  rintro set table' _ ⟨recorded, rfl⟩
  rw [requests, recorded, List.map_append, requests]

/-- Only breakpoints with the id go, and all of them. -/
theorem removeById_breakpoints (bound : Nat) :
    (removeById bound).EnsuresOk rule table world fun _ table' _ =>
      table'.breakpoints = table.breakpoints.filter fun breakpoint => breakpoint.id != bound := by
  refine Ensures.mono (removeById_spec bound) ?_
  rintro (error | removed) table' world' outcome
  · trivial
  · cases outcome with
    | absent unknown =>
        refine (List.filter_eq_self.2 fun breakpoint member => ?_).symm
        simpa using List.find?_eq_none.1 unknown breakpoint member
    | forgotten | dropped | gone => rfl

theorem removeAll_breakpoints (ids : List Nat) :
    (removeAll ids).EnsuresOk rule table world fun _ table' _ =>
      table'.breakpoints = table.breakpoints.filter fun breakpoint => breakpoint.id ∉ ids := by
  induction ids generalizing table world with
  | nil => exact EnsuresOk.pure (by simp)
  | cons first rest ih =>
      refine EnsuresOk.bind (EnsuresOk.mono (removeById_breakpoints first) ?_)
      intro removed between middle one
      refine EnsuresOk.bind (EnsuresOk.mono ih ?_)
      intro others after last more
      refine EnsuresOk.pure ?_
      rw [more, one, List.filter_filter]
      apply List.filter_congr
      intro breakpoint _
      rw [Bool.eq_iff_iff]
      simp [and_comm]

/-- Where ids are distinct, those of some breakpoints belong to no others. -/
theorem Numbered.mem_ids_iff (numbered : Numbered table) (p : BreakpointKind → Bool)
    {breakpoint : Breakpoint} (member : breakpoint ∈ table.breakpoints) :
    breakpoint.id ∈ (table.breakpoints.filter fun other => p other.kind).map Breakpoint.id ↔
      p breakpoint.kind = true := by
  constructor
  · intro found
    obtain ⟨other, chosen, same⟩ := List.mem_map.1 found
    rw [List.mem_filter] at chosen
    rw [← List.inj_on_of_nodup_map numbered.ids_nodup chosen.1 member same]
    exact chosen.2
  · exact fun holds => List.mem_map_of_mem (List.mem_filter.2 ⟨member, holds⟩)

theorem removeWhere_breakpoints (numbered : Numbered table) (p : BreakpointKind → Bool) :
    (removeWhere p).EnsuresOk rule table world fun _ table' _ =>
      table'.breakpoints = table.breakpoints.filter fun breakpoint => !p breakpoint.kind := by
  refine EnsuresOk.bind (EnsuresOk.get (EnsuresOk.mono (removeAll_breakpoints _) ?_))
  intro removed table' world' left
  rw [left]
  apply List.filter_congr
  intro breakpoint member
  simp only [numbered.mem_ids_iff p member]
  simp

/-- Removes the breakpoints of which something holds, and sets others. -/
def replace (context : ScriptContext) (p : BreakpointKind → Bool)
    (wanted : List BreakpointRequest) : TableOperation (List Breakpoint) := do
  let _ ← removeWhere p
  setAll context wanted

/-- Those that are set come after all others that are left. -/
theorem replace_breakpoints (numbered : Numbered table) (p : BreakpointKind → Bool)
    (wanted : List BreakpointRequest) (ordinary : ∀ request ∈ wanted, request.target ≠ .exception) :
    (replace context p wanted).EnsuresOk rule table world fun set table' _ =>
      table'.breakpoints = (table.breakpoints.filter fun breakpoint => !p breakpoint.kind) ++ set ∧
        set.map Breakpoint.request = wanted := by
  refine EnsuresOk.bind (EnsuresOk.mono (removeWhere_breakpoints numbered p) ?_)
  intro removed between middle left
  rw [← left]
  exact setAll_breakpoints wanted ordinary

/-- Setting the breakpoints on lines of a file keeps those that are not in the file. -/
theorem setLines_requests (numbered : Numbered table) (file : String)
    (wanted : List BreakpointRequest) (ordinary : ∀ request ∈ wanted, request.target ≠ .exception) :
    (setLines context file wanted).EnsuresOk rule table world fun _ table' _ =>
      table'.requests = (table.requests.filter fun request => !request.isIn file) ++ wanted := by
  refine EnsuresOk.mono (replace_breakpoints numbered (·.isIn file) wanted ordinary) ?_
  rintro set table' _ ⟨recorded, rfl⟩
  rw [requests, recorded, List.map_append, requests, List.filter_map]
  congr 2
  exact List.filter_congr fun breakpoint _ => by simp [isIn_request]

end BreakpointTable
end DebugBridge
