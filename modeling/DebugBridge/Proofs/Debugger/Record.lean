import DebugBridge.Proofs.Debugger.Table

/-!
# What is recorded of breakpoints

A breakpoint is recorded under an id of its own, stays as it was recorded until it is removed, and
leaves its id to no other.  What is recorded of it fits together: it can be hit unless it tells why
it cannot, and where there is no code for it it stays on the line that was asked for.
-/

namespace DebugBridge

variable {σ : Type} {rule : AnswerRule σ}

theorem ScriptContext.line_of_unverified {context : ScriptContext} {file : String} {line : Nat}
    (unverified : (context.resolveLine file line).verified = false) :
    (context.resolveLine file line).line = line := by
  unfold resolveLine at unverified ⊢
  split at unverified
  · simp only [ScannedFile.resolveLine] at unverified ⊢
    split at unverified
    · cases unverified
    · rfl
  · rfl

namespace BreakpointKind

@[simp]
theorem isBound_movedTo (kind : BreakpointKind) (line : Nat) :
    (kind.movedTo line).isBound = kind.isBound := by
  cases kind with
  | line target | log target message =>
      simp only [movedTo, LineTarget.movedTo]
      split <;> rfl
  | function target | «return» target =>
      simp [movedTo, FunctionTarget.movedTo, isBound]
  | exception => rfl

@[simp]
theorem movedTo_eq_exception {kind : BreakpointKind} {line : Nat} :
    kind.movedTo line = .exception ↔ kind = .exception := by
  cases kind <;> simp [movedTo]

@[simp]
theorem unverified_eq_exception {kind : BreakpointKind} :
    kind.unverified = .exception ↔ kind = .exception := by
  cases kind <;> simp [unverified]

/-- A line target without code is on the line that was asked for. -/
def OnRequest (kind : BreakpointKind) : Prop :=
  ∀ target, kind.lineTarget? = some target → target.verified = false →
    target.line = target.requestedLine

theorem onRequest_unverified (kind : BreakpointKind) : kind.unverified.OnRequest := by
  intro target bound _
  cases kind with
  | line | log =>
      cases bound
      rfl
  | function | «return» | exception => cases bound

theorem OnRequest.movedTo {kind : BreakpointKind} (onRequest : kind.OnRequest) (line : Nat) :
    (kind.movedTo line).OnRequest := by
  have moved (target : LineTarget) (still : target.verified = false → target.line = target.requestedLine) :
      (target.movedTo line).verified = false →
        (target.movedTo line).line = (target.movedTo line).requestedLine := by
    unfold LineTarget.movedTo
    split
    · next verified => exact fun unverified => absurd (verified.symm.trans unverified) nofun
    · exact still
  intro target bound
  cases kind with
  | line | log =>
      cases bound
      exact moved _ (onRequest _ rfl)
  | function | «return» | exception => cases bound

end BreakpointKind

namespace Breakpoint

/-- What is recorded of a breakpoint fits together. -/
structure Consistent (breakpoint : Breakpoint) : Prop where
  /-- It can be hit unless it tells why it cannot. -/
  verified_iff : breakpoint.verified = true ↔ breakpoint.message = none
  /-- A line without code is the one that was asked for. -/
  onRequest : breakpoint.kind.OnRequest

theorem consistent_rejected {breakpoint : Breakpoint} (unset : breakpoint.engineId = none)
    (reason : String) : (breakpoint.rejected reason).Consistent where
  verified_iff := by simp [rejected, verified, unset]
  onRequest := breakpoint.kind.onRequest_unverified

end Breakpoint

namespace BreakpointTable

open Operation Breakpoint

variable {context : ScriptContext} {request : BreakpointRequest} {table : BreakpointTable}
  {world after : σ}

/-- A breakpoint that is wanted tells why it cannot be bound unless it is bound, and a line without
code is the one that was asked for. -/
theorem draft_bound (context : ScriptContext) (request : BreakpointRequest) (id : Nat) :
    ((draft context request id).message = none ↔
        (draft context request id).kind.isBound = true) ∧
      (draft context request id).kind.OnRequest := by
  rcases request with ⟨target, _, _, _, _⟩
  rcases target with ⟨file, line, column, message⟩ | ⟨name, onReturn⟩ | _
  · have asked : ∀ target : LineTarget, target.line = (context.resolveLine file line).line →
        target.verified = (context.resolveLine file line).verified → target.requestedLine = line →
          target.verified = false → target.line = target.requestedLine := by
      rintro target resolved verified rfl unverified
      exact resolved.trans (ScriptContext.line_of_unverified (verified ▸ unverified))
    cases message <;>
    · refine ⟨by simp [draft, ScriptContext.bind, BreakpointKind.isBound], ?_⟩
      rintro target ⟨⟩
      exact asked _ rfl rfl rfl
  · cases onReturn <;>
    · refine ⟨by simp [draft, ScriptContext.bind, BreakpointKind.isBound, Option.isSome_iff_ne_none],
        ?_⟩
      rintro target ⟨⟩
  · exact ⟨iff_of_true rfl rfl, nofun⟩

theorem isBound_of_not_installable {kind : BreakpointKind} (nowhere : kind.isInstallable = false) :
    kind.isBound = false := by
  cases kind with
  | line | log | exception => cases nowhere
  | function target | «return» target =>
      simpa [BreakpointKind.isInstallable, BreakpointKind.functionTarget?,
        BreakpointKind.isBound] using nowhere

/-- Whatever the engine makes of a breakpoint that is wanted, what is recorded fits together. -/
theorem consistent_of_offered {id : Nat} {breakpoint : Breakpoint}
    (offered : Offered rule (draft context request id) world (.ok breakpoint) after) :
    breakpoint.Consistent := by
  obtain ⟨bound, onRequest⟩ := draft_bound context request id
  cases offered with
  | unplaced nowhere =>
      refine ⟨?_, onRequest⟩
      simp [verified, bound, isBound_of_not_installable nowhere]
  | unsaid | refused | unnumbered => exact consistent_rejected rfl _
  | @taken _ _ _ _ _ reply =>
      cases chosen : boundLine reply with
      | none => exact ⟨by simp [verified, taken, bound], onRequest⟩
      | some line => exact ⟨by simp [verified, taken, bound], onRequest.movedTo line⟩

theorem kind_of_offered {id : Nat} {breakpoint : Breakpoint}
    (offered : Offered rule (draft context request id) world (.ok breakpoint) after)
    (exception : breakpoint.kind = .exception) : request.target = .exception := by
  have drafted : (draft context request id).kind = .exception := by
    cases offered with
    | unplaced => exact exception
    | unsaid | refused | unnumbered => exact BreakpointKind.unverified_eq_exception.1 exception
    | @taken _ _ _ _ _ reply =>
        cases chosen : boundLine reply with
        | none => simpa [taken, chosen] using exception
        | some line => simpa [taken, chosen] using exception
  rcases request with ⟨target, _, _, _, _⟩
  cases target with
  | exception => rfl
  | line file line column message => cases message <;> cases drafted
  | function name onReturn => cases onReturn <;> cases drafted

/-! ## Tables -/

/-- Whatever has been done to a table, its breakpoints have ids of their own, at most one of them is
on exceptions, and what is recorded of each fits together. -/
structure Sound (table : BreakpointTable) : Prop extends Numbered table where
  exceptions_le : (table.breakpoints.filter fun other => other.kind == .exception).length ≤ 1
  consistent : ∀ breakpoint ∈ table.breakpoints, breakpoint.Consistent

theorem sound_empty : Sound .empty :=
  ⟨numbered_empty, Nat.zero_le 1, List.forall_mem_nil _⟩

/-- A breakpoint is found under its id. -/
theorem Numbered.get?_id (numbered : Numbered table) {breakpoint : Breakpoint}
    (member : breakpoint ∈ table.breakpoints) : table.get? breakpoint.id = some breakpoint := by
  cases found : table.get? breakpoint.id with
  | none =>
      have other := List.find?_eq_none.1 found breakpoint member
      exact absurd (beq_self_eq_true _) other
  | some other =>
      obtain ⟨recorded, same⟩ := mem_of_get? found
      rw [List.inj_on_of_nodup_map numbered.ids_nodup recorded member same]

theorem Sound.without (sound : Sound table) (id : Nat) : Sound (table.without id) where
  toNumbered := sound.toNumbered.without id
  exceptions_le := Nat.le_trans (List.filter_sublist.filter _).length_le sound.exceptions_le
  consistent breakpoint member := sound.consistent breakpoint (List.mem_of_mem_filter member)

/-- What one step keeps. -/
theorem Sound.step {remit : Remit} {before after : BreakpointTable × σ}
    (step : Step rule remit before after) (sound : Sound before.1) : Sound after.1 := by
  cases step with
  | @create _ request table _ _ _ _ _ single created =>
      cases created with
      | failed => exact ⟨sound.toNumbered.skip, sound.exceptions_le, sound.consistent⟩
      | made offered =>
          refine ⟨sound.toNumbered.add (id_of_offered offered), ?_, ?_⟩
          · rw [add, List.filter_append, List.length_append]
            by_cases exception : request.target = .exception
            · have none_ := List.filter_eq_nil_iff.2 (List.find?_eq_none.1 (single exception))
              rw [none_]
              exact Nat.le_trans (Nat.le_of_eq (Nat.zero_add _)) (List.length_filter_le _ _)
            · have other := mt (kind_of_offered offered) exception
              simpa [other] using sound.exceptions_le
          · intro breakpoint member
            rcases List.mem_append.1 member with old | new
            · exact sound.consistent breakpoint old
            · rw [List.mem_singleton.1 new]
              exact consistent_of_offered offered
  | remove _ removed =>
      cases removed with
      | absent | refused | lost => exact sound
      | forgotten | dropped | gone => exact sound.without _

/-- A table that comes after another one: it has only breakpoints of the other one, unchanged, and
such that have ids which were not given out then. -/
structure Continues (earlier later : BreakpointTable) : Prop where
  nextId_le : earlier.nextId ≤ later.nextId
  kept_or_new : ∀ breakpoint ∈ later.breakpoints,
    breakpoint ∈ earlier.breakpoints ∨ earlier.nextId ≤ breakpoint.id

theorem Continues.refl (table : BreakpointTable) : Continues table table :=
  ⟨Nat.le_refl _, fun _ => .inl⟩

theorem Continues.trans {first middle last : BreakpointTable} (early : Continues first middle)
    (late : Continues middle last) : Continues first last where
  nextId_le := Nat.le_trans early.nextId_le late.nextId_le
  kept_or_new breakpoint member := by
    rcases late.kept_or_new breakpoint member with kept | new
    · exact early.kept_or_new breakpoint kept
    · exact .inr (Nat.le_trans early.nextId_le new)

theorem Step.continues {remit : Remit} {before after : BreakpointTable × σ}
    (step : Step rule remit before after) : Continues before.1 after.1 := by
  cases step with
  | create _ _ created =>
      cases created with
      | failed => exact ⟨Nat.le_succ _, fun _ => .inl⟩
      | made offered =>
          refine ⟨Nat.le_succ _, fun breakpoint member => ?_⟩
          rcases List.mem_append.1 member with old | new
          · exact .inl old
          · rw [List.mem_singleton.1 new, id_of_offered offered]
            exact .inr (Nat.le_refl _)
  | remove _ removed =>
      refine ⟨?_, fun breakpoint member => .inl (breakpoints_of_removed removed member)⟩
      cases removed <;> exact Nat.le_refl _

/-- Two breakpoints with one id are the same breakpoint, which has been there all the time. -/
theorem Continues.eq_of_id {first middle last : BreakpointTable} (early : Continues first middle)
    (late : Continues middle last) (numbered : Numbered first) {breakpoint other : Breakpoint}
    (recorded : breakpoint ∈ first.breakpoints) (found : other ∈ last.breakpoints)
    (same : other.id = breakpoint.id) : other = breakpoint ∧ breakpoint ∈ middle.breakpoints := by
  have given : other.id < first.nextId := same ▸ numbered.ids_lt breakpoint recorded
  have there : other ∈ middle.breakpoints := by
    refine (late.kept_or_new other found).resolve_right fun new => ?_
    exact Nat.not_le_of_lt given (Nat.le_trans early.nextId_le new)
  have before : other ∈ first.breakpoints :=
    (early.kept_or_new other there).resolve_right (Nat.not_le_of_lt given)
  obtain rfl := List.inj_on_of_nodup_map numbered.ids_nodup before recorded same
  exact ⟨rfl, there⟩

/-! ## Calls -/

/-- The tables before, between and after calls that are made one after the other, each whatever has
become of those before it. -/
def annals : List (ScriptContext × Call) → TableOperation (List BreakpointTable)
  | [] => do return [← get]
  | (context, call) :: rest => do
    let table ← get
    tryCatch (call.perform context) fun _ => return ()
    return table :: (← annals rest)

theorem annals_spec (calls : List (ScriptContext × Call)) (sound : Sound table) :
    (annals calls).Ensures rule table world fun result _ _ =>
      ∃ tables, result = .ok tables ∧ tables.length = calls.length + 1 ∧
        (∀ later ∈ tables, Sound later ∧ Continues table later) ∧ tables.Pairwise Continues := by
  induction calls generalizing table world with
  | nil =>
      simp only [annals, ensures_bind, ensures_get, ensures_pure]
      exact ⟨[table], rfl, rfl, List.forall_mem_singleton.2 ⟨sound, .refl table⟩,
        List.pairwise_singleton _ _⟩
  | cons entry rest ih =>
      have goesOn {later : BreakpointTable} {last : σ}
          (steps : Steps rule .all (table, world) (later, last)) :
          Ensures rule (do return table :: (← annals rest) : TableOperation _) later last
            fun result _ _ => ∃ tables, result = .ok tables ∧
              tables.length = (entry :: rest).length + 1 ∧
                (∀ later ∈ tables, Sound later ∧ Continues table later) ∧
                  tables.Pairwise Continues := by
        obtain ⟨kept, follows⟩ :=
          keeps_of_steps steps (fun later _ => Sound later ∧ Continues table later)
            ⟨sound, .refl table⟩ fun step holds =>
              ⟨holds.1.step step, holds.2.trans step.continues⟩
        refine (ensures_bind _ _).2 ((ih kept).mono ?_)
        rintro _ _ _ ⟨tables, rfl, length, later, pairwise⟩
        have all : ∀ other ∈ tables, Sound other ∧ Continues table other :=
          fun other member => ⟨(later other member).1, follows.trans (later other member).2⟩
        refine (ensures_pure _).2 ⟨_, rfl, congrArg (· + 1) length, ?_, ?_⟩
        · exact List.forall_mem_cons.2 ⟨⟨sound, .refl table⟩, all⟩
        · exact List.pairwise_cons.2 ⟨fun other member => (all other member).2, pairwise⟩
      refine (ensures_bind _ _).2 (ensures_get.2 ((ensures_bind _ _).2 ?_))
      refine (ensures_tryCatch _ _).2 ((Call.walks entry.1 entry.2 table world).mono ?_)
      rintro (error | value) later last steps
      · exact (ensures_pure _).2 (goesOn steps)
      · exact goesOn steps

/-- Whatever calls are made of an empty table, and whatever the engine answers, at each time every
breakpoint is found under its id, which lies below the next one, at most one is on exceptions, each
can be hit unless it tells why it cannot, and a line without code is the one that was asked for; and
two breakpoints that have one id, at whatever times, are the same breakpoint, which has been there
all the time between. -/
theorem recorded_of_annals (rule : AnswerRule σ) (calls : List (ScriptContext × Call)) (world : σ) :
    (annals calls).Ensures rule .empty world fun result _ _ =>
      ∃ tables, result = .ok tables ∧ tables.length = calls.length + 1 ∧
        (∀ table ∈ tables,
          (table.breakpoints.filter fun other => other.kind == .exception).length ≤ 1 ∧
          ∀ breakpoint ∈ table.breakpoints,
            table.get? breakpoint.id = some breakpoint ∧ breakpoint.id < table.nextId ∧
            (breakpoint.verified = true ↔ breakpoint.message = none) ∧
            ∀ target, breakpoint.kind.lineTarget? = some target → target.verified = false →
              target.line = target.requestedLine) ∧
        ∀ {i j k : Nat} {first middle last : BreakpointTable}, i ≤ j → j ≤ k →
          tables[i]? = some first → tables[j]? = some middle → tables[k]? = some last →
          ∀ breakpoint ∈ first.breakpoints, ∀ other ∈ last.breakpoints,
            other.id = breakpoint.id → other = breakpoint ∧ breakpoint ∈ middle.breakpoints := by
  refine (annals_spec calls sound_empty).mono ?_
  rintro _ _ _ ⟨tables, rfl, length, each, pairwise⟩
  have follows {i j : Nat} {earlier later : BreakpointTable} (le : i ≤ j)
      (first : tables[i]? = some earlier) (last : tables[j]? = some later) :
      Continues earlier later := by
    obtain ⟨inside, rfl⟩ := List.getElem?_eq_some_iff.1 first
    obtain ⟨insideToo, rfl⟩ := List.getElem?_eq_some_iff.1 last
    rcases Nat.eq_or_lt_of_le le with rfl | lt
    · exact .refl _
    · exact List.pairwise_iff_getElem.1 pairwise i j inside insideToo lt
  refine ⟨tables, rfl, length, fun table member => ?_, ?_⟩
  · obtain ⟨sound, -⟩ := each table member
    refine ⟨sound.exceptions_le, fun breakpoint recorded => ?_⟩
    have consistent := sound.consistent breakpoint recorded
    exact ⟨sound.get?_id recorded, sound.ids_lt breakpoint recorded, consistent.verified_iff,
      consistent.onRequest⟩
  · intro i j k first middle last early late atFirst atMiddle atLast breakpoint recorded other found
    have sound := (each first (List.mem_of_getElem? atFirst)).1
    exact (follows early atFirst atMiddle).eq_of_id (follows late atMiddle atLast)
      sound.toNumbered recorded found

end BreakpointTable
end DebugBridge
