import DebugBridge.Proofs.Debugger.Inquiry
import DebugBridge.Proofs.Debugger.Paging
import DebugBridge.Proofs.Text.Blank
import Mathlib.Data.List.DropRight

/-!
# Names that complete a text

The word at the end of a text is cut at its last dot.  Names are asked for at the engine, members of
what precedes the dot or all variables, and of those that start with what follows it the first of
each spelling is kept, upper and lower case aside.
-/

namespace DebugBridge

variable {σ : Type} {rule : AnswerRule σ}

namespace Link

open Operation

/-! ## The word that is completed -/

/-- The word at the end of a text: it cannot be made longer. -/
structure IsLastWord (text word : List Char) : Prop where
  /-- The text ends in it. -/
  ends : word <:+ text
  /-- It is made of what words are made of. -/
  within : ∀ c ∈ word, isCompletionChar c = true
  /-- Whatever else the text ends in and is made so is an end of it. -/
  longest : ∀ other, other <:+ text → (∀ c ∈ other, isCompletionChar c = true) → other <:+ word

theorem isLastWord_completionWord (text : List Char) : IsLastWord text (completionWord text) where
  ends := List.rtakeWhile_suffix isCompletionChar text
  within _ member := List.mem_rtakeWhile_imp (l := text) member
  longest other ends within := by
    obtain ⟨before, rfl⟩ := ends
    have reversed : ∀ c ∈ other.reverse, isCompletionChar c = true :=
      fun c member => within c (List.mem_reverse.1 member)
    rw [completionWord, List.reverse_append, List.takeWhile_append_of_pos reversed,
      List.reverse_append, List.reverse_reverse]
    exact List.suffix_append _ _

/-- A word, what precedes its last dot, if it has one, and the start of names that are wanted. -/
inductive Cut : List Char → Option (List Char) → List Char → Prop where
  /-- There is no dot. -/
  | whole {word : List Char} (plain : '.' ∉ word) : Cut word none word
  /-- There is one, and none after it. -/
  | dot (owner : List Char) {start : List Char} (plain : '.' ∉ start) :
    Cut (owner ++ '.' :: start) (some owner) start

/-! ## The names that are kept -/

/-- How a name is spelled, upper and lower case aside. -/
def spelling (name : String) : List Char := Text.lower name.toList

/-- At a position is the first name with some spelling, and such a one is wanted. -/
def IsFirst (wanted : List Char → Prop) (names : List String) (position : Nat) : Prop :=
  ∃ name, names[position]? = some name ∧ wanted (spelling name) ∧
    ∀ earlier < position, ∀ other, names[earlier]? = some other → spelling other ≠ spelling name

/-- The first names of all spellings that are wanted, in order. -/
structure Firsts (wanted : List Char → Prop) (names kept : List String) (positions : List Nat) :
    Prop where
  /-- They are in order. -/
  ordered : positions.Pairwise (· < ·)
  /-- They are those. -/
  mem_iff : ∀ position, position ∈ positions ↔ IsFirst wanted names position
  /-- They are kept. -/
  kept : kept.map some = positions.map (names[·]?)

section Firsts

variable {wanted : List Char → Prop} {name : String} {names rest kept : List String}
  {positions : List Nat}

theorem isFirst_zero : IsFirst wanted (name :: rest) 0 ↔ wanted (spelling name) := by
  constructor
  · rintro ⟨_, ⟨⟩, wanted, -⟩
    exact wanted
  · exact fun wanted => ⟨name, rfl, wanted, nofun⟩

/-- A name is the first one after another if it is spelled differently. -/
theorem isFirst_succ {position : Nat} : IsFirst wanted (name :: rest) (position + 1) ↔
    IsFirst (fun letters => wanted letters ∧ letters ≠ spelling name) rest position := by
  constructor
  · rintro ⟨found, here, wanted, first⟩
    exact ⟨found, here, ⟨wanted, (first 0 (Nat.succ_pos _) name rfl).symm⟩,
      fun earlier lt => first (earlier + 1) (Nat.succ_lt_succ lt)⟩
  · rintro ⟨found, here, ⟨wanted, other⟩, first⟩
    refine ⟨found, here, wanted, fun earlier lt => ?_⟩
    cases earlier with
    | zero =>
        rintro _ ⟨⟩
        exact other.symm
    | succ earlier => exact first earlier (Nat.lt_of_succ_lt_succ lt)

/-- What is kept of a list begins with its first name, if that is wanted. -/
theorem Firsts.cons (wants : wanted (spelling name))
    (firsts : Firsts (fun letters => wanted letters ∧ letters ≠ spelling name) rest kept
      positions) : Firsts wanted (name :: rest) (name :: kept) (0 :: positions.map (· + 1)) where
  ordered := by
    rw [List.pairwise_cons, List.pairwise_map]
    refine ⟨fun position member => ?_, firsts.ordered.imp Nat.succ_lt_succ⟩
    obtain ⟨before, -, rfl⟩ := List.mem_map.1 member
    exact Nat.succ_pos before
  mem_iff position := by
    cases position with
    | zero => exact iff_of_true List.mem_cons_self (isFirst_zero.2 wants)
    | succ position => rw [isFirst_succ, ← firsts.mem_iff]; simp
  kept := by
    rw [List.map_cons, firsts.kept, List.map_cons, List.map_map]
    rfl

/-- A name that is not wanted is passed over. -/
theorem Firsts.skip (unwanted : ¬wanted (spelling name))
    (firsts : Firsts wanted rest kept positions) :
    Firsts wanted (name :: rest) kept (positions.map (· + 1)) where
  ordered := by
    rw [List.pairwise_map]
    exact firsts.ordered.imp Nat.succ_lt_succ
  mem_iff position := by
    cases position with
    | zero => exact iff_of_false (by simp) (mt isFirst_zero.1 unwanted)
    | succ position =>
        have apart : (fun letters => wanted letters ∧ letters ≠ spelling name) = wanted :=
          funext fun letters => propext (and_iff_left_of_imp fun wants same =>
            unwanted (same ▸ wants))
        rw [isFirst_succ, apart, ← firsts.mem_iff]
        simp
  kept := by
    rw [firsts.kept, List.map_map]
    rfl

/-- No two names that are kept have one spelling. -/
theorem Firsts.pairwise (firsts : Firsts wanted names kept positions) :
    kept.Pairwise fun name other => spelling name ≠ spelling other := by
  have apart : (positions.map (names[·]?)).Pairwise fun first second =>
      ∀ name ∈ first, ∀ other ∈ second, spelling name ≠ spelling other := by
    rw [List.pairwise_map]
    refine firsts.ordered.imp_of_mem fun {first second} _ member lt name here other there => ?_
    obtain ⟨_, found, -, unseen⟩ := (firsts.mem_iff second).1 member
    cases found.symm.trans there
    exact unseen first lt name here
  rw [← firsts.kept, List.pairwise_map] at apart
  exact apart.imp fun apart => apart _ rfl _ rfl

end Firsts

/-- The names that are kept are the first ones of the spellings that are wanted and have not been
seen. -/
theorem exists_firsts_distinctNames (keeps : List Char → Bool) (seen : List (List Char))
    (names : List String) :
    ∃ positions, Firsts (fun letters => keeps letters = true ∧ letters ∉ seen) names
      (distinctNames seen (names.filter fun name => keeps (spelling name))) positions := by
  induction names generalizing seen with
  | nil => exact ⟨[], .nil, fun position => iff_of_false nofun (by rintro ⟨_, ⟨⟩, -⟩), rfl⟩
  | cons name rest ih =>
      by_cases wants : keeps (spelling name) = true
      · rw [List.filter_cons, if_pos wants, distinctNames, ← spelling]
        split
        · next known =>
            obtain ⟨positions, firsts⟩ := ih seen
            exact ⟨_, firsts.skip fun fresh => fresh.2 (List.contains_iff_mem.1 known)⟩
        · next fresh =>
            obtain ⟨positions, firsts⟩ := ih (spelling name :: seen)
            have unseen := mt List.contains_iff_mem.2 fresh
            refine ⟨_, .cons ⟨wants, unseen⟩ (?_ : Firsts _ _ _ positions)⟩
            simpa only [List.mem_cons, not_or, and_assoc, and_comm] using firsts
      · rw [List.filter_cons, if_neg wants]
        obtain ⟨positions, firsts⟩ := ih seen
        exact ⟨_, firsts.skip fun fresh => wants fresh.1⟩

/-- The names that match are the first ones of each spelling that starts so. -/
theorem exists_firsts_matchingNames (start : List Char) (names : List String) :
    ∃ positions, Firsts (Text.lower start <+: ·) names (matchingNames start names) positions := by
  obtain ⟨positions, firsts⟩ := exists_firsts_distinctNames
    (fun letters => (Text.afterStart (Text.lower start) letters).isSome) [] names
  simp only [Text.isSome_afterStart, List.not_mem_nil, not_false_eq_true, and_true] at firsts
  exact ⟨positions, firsts⟩

/-- Of names that are spelled alike the first one is kept. -/
example : matchingNames ['N'] ["name", "x", "Name", "n"] = ["name", "n"] := by decide +kernel

/-! ## The names that there are -/

/-- The command that asks for the groups of variables. -/
def contextsCommand (depth : Nat) : Command := (Command.named "context_names").argNat 'd' depth

/-- The command that asks for the variables of a group. -/
def variablesCommand (depth contextId : Nat) : Command :=
  ((Command.named "context_get").argNat 'd' depth).argNat 'c' contextId

/-- The groups of variables that an answer tells of. -/
def contextsIn : Except SessionError Response → Except DebugError (List VariableContext)
  | .error error => .error (.ofSession error)
  | .ok response => .ok response.contexts

/-- The names of members, none if the engine refuses to tell of them. -/
def membersOf : Except DebugError (List Property) → Except DebugError (List String)
  | .ok children => .ok (children.map Property.name)
  | .error (.engine _) => .ok []
  | .error error => .error error

/-- What has been asked for the variables of some groups, and what came of it. -/
structure Listed (depth : Nat) (contexts : List VariableContext) (asked : List Exchange)
    (answers : List (Except SessionError Response)) (result : Except DebugError (List String)) :
    Prop where
  /-- The groups are asked for one after the other. -/
  asked : asked = List.zipWith (fun context answer =>
    ⟨.submit (variablesCommand depth context.id) none, answer⟩) contexts answers
  /-- Each is asked for once at most. -/
  few : answers.length ≤ contexts.length
  /-- The names are those of the variables that the answers tell of, in order. -/
  returned : result = (answers.mapM foundIn).map fun found => found.flatten.map Property.name
  /-- All groups have been asked for, unless an answer fails. -/
  complete (names : List String) (ok : result = .ok names) : answers.length = contexts.length

/-- The names that there are at a depth, members of something or variables, what was asked for them
and what came of it. -/
inductive Offers (depth : Nat) :
    Option (List Char) → List Exchange → Except DebugError (List String) → Prop where
  /-- All pages of members. -/
  | members {owner : List Char} {asked : List Exchange} {first : Except SessionError Response}
    {more : List (Except SessionError Response)} {result : Except DebugError (List Property)}
    (fetched : Fetched (pageCommand depth none (String.ofList owner)) asked first more result) :
    Offers depth (some owner) asked (membersOf result)
  /-- The groups of variables are not told. -/
  | failed {answer : Except SessionError Response} {error : DebugError}
    (fails : contextsIn answer = .error error) :
    Offers depth none [⟨.submit (contextsCommand depth) none, answer⟩] (.error error)
  /-- All groups of variables. -/
  | variables {answer : Except SessionError Response} {contexts : List VariableContext}
    {asked : List Exchange} {answers : List (Except SessionError Response)}
    {result : Except DebugError (List String)} (told : contextsIn answer = .ok contexts)
    (listed : Listed depth contexts asked answers result) :
    Offers depth none (⟨.submit (contextsCommand depth) none, answer⟩ :: asked) result

variable {link : Link} {world : σ} {exchanges : List Exchange}

theorem contexts_ensures (depth : Nat) :
    (contexts depth).Ensures rule link world fun result after last =>
      after = link ∧ last = (rule (.submit (contextsCommand depth) none) world).2 ∧
        result = contextsIn (rule (.submit (contextsCommand depth) none) world).1 := by
  refine (ensures_bind _ _).2 ((ensures_bind _ _).2 ((ensures_attempt _).2 ?_))
  rw [← contextsCommand]
  rcases rule (.submit (contextsCommand depth) none) world with ⟨error | response, next⟩
  · cases error with
    | engine error => exact (ensures_throw _).2 ⟨rfl, rfl, rfl⟩
    | _ => exact ⟨rfl, rfl, rfl⟩
  · exact (ensures_pure _).2 ((ensures_pure _).2 ⟨rfl, rfl, rfl⟩)

section Listed

variable {depth : Nat} {context : VariableContext} {rest : List VariableContext}
  {answer : Except SessionError Response} {answers : List (Except SessionError Response)}
  {asked : List Exchange} {result : Except DebugError (List String)}

/-- An answer that fails is the last one. -/
theorem listed_failed {error : DebugError} (told : foundIn answer = .error error) :
    Listed depth (context :: rest) [⟨.submit (variablesCommand depth context.id) none, answer⟩]
      [answer] (.error error) where
  asked := by rw [List.zipWith_cons_cons, List.zipWith_nil_right]
  few := Nat.succ_le_succ (Nat.zero_le _)
  returned := by simp [told, Except.map, bind, Except.bind]
  complete := nofun

/-- The other groups come after the first one. -/
theorem Listed.cons {found : List Property} (told : foundIn answer = .ok found)
    (listed : Listed depth rest asked answers result) :
    Listed depth (context :: rest)
      (⟨.submit (variablesCommand depth context.id) none, answer⟩ :: asked) (answer :: answers)
      (result.map (found.map Property.name ++ ·)) where
  asked := by rw [listed.asked, List.zipWith_cons_cons]
  few := Nat.succ_le_succ listed.few
  returned := by
    rw [listed.returned, List.mapM_cons, told]
    cases answers.mapM foundIn <;> simp [Except.map, bind, Except.bind, pure, Except.pure]
  complete names ok := by
    cases result with
    | error error => cases ok
    | ok others => exact congrArg Nat.succ (listed.complete others rfl)

end Listed

/-- One group is asked for after the other. -/
theorem variableNames_ensures (depth : Nat) (contexts : List VariableContext) :
    (variableNames depth contexts).Ensures rule.recorded link (world, exchanges)
      fun result after last => after = link ∧ ∃ asked answers, last.2 = exchanges ++ asked ∧
        Listed depth contexts asked answers result := by
  induction contexts generalizing world exchanges with
  | nil =>
      exact (ensures_pure _).2 ⟨rfl, [], [], (List.append_nil _).symm, rfl, Nat.le_refl _, rfl,
        fun _ _ => rfl⟩
  | cons context rest ih =>
      refine (ensures_bind _ _).2 ((properties_ensures _).mono ?_)
      rintro _ _ _ ⟨rfl, rfl, rfl⟩
      rw [← variablesCommand]
      dsimp only [AnswerRule.recorded]
      generalize (rule (.submit (variablesCommand depth context.id) none) world).1 = answer
      cases told : foundIn answer with
      | error error => exact ⟨rfl, _, _, rfl, listed_failed told⟩
      | ok found =>
          refine (ensures_bind _ _).2 (ih.mono ?_)
          rintro result after last ⟨rfl, asked, answers, exchanged, listed⟩
          have whole : last.2 = exchanges ++
              (⟨.submit (variablesCommand depth context.id) none, answer⟩ :: asked) := by
            rw [exchanged]
            exact List.append_assoc ..
          cases result with
          | error error => exact ⟨rfl, _, _, whole, listed.cons told⟩
          | ok names => exact (ensures_pure _).2 ⟨rfl, _, _, whole, listed.cons told⟩

/-- Whatever the engine answers, the children of something are asked for page by page. -/
theorem propertyChildren_ensures (depth : Nat) (contextId : Option Nat) (fullName : String) :
    (propertyChildren depth contextId fullName).Ensures rule.recorded link (world, exchanges)
      fun result after last => after = link ∧ ∃ asked first more, last.2 = exchanges ++ asked ∧
        Fetched (pageCommand depth contextId fullName) asked first more result := by
  refine (ensures_bind _ _).2 ((properties_ensures _).mono ?_)
  rintro _ _ _ ⟨rfl, rfl, rfl⟩
  dsimp only [AnswerRule.recorded]
  generalize (rule (.submit (pageCommand depth contextId fullName 0) none) world).1 = first
  have alone := @fetched_first (pageCommand depth contextId fullName) first
  rw [propertyIn?, childrenIn] at alone
  rcases told : foundIn first with error | _ | ⟨property, others⟩
  · rw [told] at alone
    exact ⟨rfl, _, first, [], rfl, alone rfl⟩
  · rw [told] at alone
    exact (ensures_pure _).2 ⟨rfl, _, first, [], rfl, alone rfl⟩
  · refine (addPages_continues _ _ (Nat.le_refl _)).mono ?_
    rintro result after last ⟨rfl, more, exchanged, continues⟩
    refine ⟨rfl, _, first, more, ?_, continues.fetched told⟩
    rw [exchanged]
    exact List.append_assoc ..

/-- The members of something have names, or there are none where the engine refuses. -/
theorem memberNames_ensures (depth : Nat) (owner : List Char) :
    (memberNames depth (String.ofList owner)).Ensures rule.recorded link (world, exchanges)
      fun result after last => after = link ∧ ∃ asked, last.2 = exchanges ++ asked ∧
        Offers depth (some owner) asked result := by
  refine (ensures_bind _ _).2 ((ensures_tryCatch _ _).2 ((ensures_bind _ _).2
    ((propertyChildren_ensures depth none _).mono ?_)))
  rintro (error | children) after last ⟨rfl, asked, first, more, exchanged, fetched⟩
  · have offers := Offers.members fetched
    dsimp only
    split
    · exact (ensures_pure _).2 ((ensures_pure _).2 ⟨rfl, asked, exchanged, offers⟩)
    · next other =>
        refine (ensures_throw _).2 ⟨rfl, asked, exchanged, ?_⟩
        cases error with
        | engine error => exact absurd rfl (other error)
        | _ => exact offers
  · exact (ensures_pure _).2 ((ensures_pure _).2 ⟨rfl, asked, exchanged, .members fetched⟩)

/-! ## Completion -/

/-- What comes of completing a text, and what is asked for it. -/
inductive Completes (link : Link) (text : String) (frame : Option Int) :
    List Exchange → Except DebugError (List CompletionItem) → Prop where
  /-- The frame has no such number. -/
  | unknown {number : Int} (used : frame = some number)
    (meaningless : ∀ depth, ¬link.ledger.AtDepth frame depth) :
    Completes link text frame [] (.error (.unknownReference number))
  /-- The names cannot be had. -/
  | failed {depth : Nat} {word start : List Char} {owner : Option (List Char)}
    {asked : List Exchange} {error : DebugError} (given : link.ledger.AtDepth frame depth)
    (last : IsLastWord text.toList word) (cut : Cut word owner start)
    (offers : Offers depth owner asked (.error error)) :
    Completes link text frame asked (.error error)
  /-- Of the names that there are the first ones of all spellings that start like what is to be
  completed are given, so that no two are spelled alike. -/
  | completed {depth : Nat} {word start : List Char} {owner : Option (List Char)}
    {asked : List Exchange} {names labels : List String} {positions : List Nat}
    (given : link.ledger.AtDepth frame depth) (last : IsLastWord text.toList word)
    (cut : Cut word owner start) (offers : Offers depth owner asked (.ok names))
    (firsts : Firsts (Text.lower start <+: ·) names labels positions)
    (distinct : labels.Pairwise fun label other => spelling label ≠ spelling other) :
    Completes link text frame asked (.ok (labels.map fun label =>
      { label, kind := some (if owner.isSome then "property" else "variable") }))

/-- What is given of names that are offered. -/
theorem completes_of_offers {text : String} {frame : Option Int} {depth : Nat}
    {word start : List Char} {owner : Option (List Char)} {asked : List Exchange}
    {result : Except DebugError (List String)} (given : link.ledger.AtDepth frame depth)
    (last : IsLastWord text.toList word) (cut : Cut word owner start)
    (offers : Offers depth owner asked result) :
    Completes link text frame asked (result.map fun names =>
      (matchingNames start names).map fun label =>
        { label, kind := some (if owner.isSome then "property" else "variable") }) := by
  cases result with
  | error error => exact .failed given last cut offers
  | ok names =>
      obtain ⟨positions, firsts⟩ := exists_firsts_matchingNames start names
      exact .completed given last cut offers firsts firsts.pairwise

/-- Completing a text asks the engine for names, and leaves what is known of it as it was. -/
theorem completions_ensures (text : String) (frame : Option Int) :
    (completions text frame).Ensures rule.recorded link (world, exchanges)
      fun result after last => after = link ∧ ∃ asked, last.2 = exchanges ++ asked ∧
        Completes link text frame asked result := by
  refine (ensures_bind _ _).2 ((frameDepth_spec frame).mono ?_)
  rintro _ link _ ⟨rfl, rfl, ⟨depth, rfl, given⟩ | ⟨number, used, rfl, meaningless⟩⟩
  · have last := isLastWord_completionWord text.toList
    dsimp only
    rcases Text.splitLast_cases '.' (completionWord text.toList) with
      ⟨plain, cut⟩ | ⟨owner, start, whole, plain, cut⟩
    · rw [cut]
      have completes {asked : List Exchange} {result : Except DebugError (List String)}
          (offers : Offers depth none asked result) :=
        completes_of_offers given last (.whole plain) offers
      refine (ensures_bind _ _).2 ((contexts_ensures depth).mono ?_)
      rintro _ _ _ ⟨rfl, rfl, rfl⟩
      dsimp only [AnswerRule.recorded]
      generalize (rule (.submit (contextsCommand depth) none) world).1 = answer
      cases told : contextsIn answer with
      | error error => exact ⟨rfl, _, rfl, completes (.failed told)⟩
      | ok contexts =>
          refine (ensures_bind _ _).2 ((variableNames_ensures depth contexts).mono ?_)
          rintro result after final ⟨rfl, asked, answers, exchanged, listed⟩
          have offers := completes (.variables told listed)
          have all : final.2 = exchanges ++
              (⟨.submit (contextsCommand depth) none, answer⟩ :: asked) := by
            rw [exchanged]
            exact List.append_assoc ..
          cases result with
          | error error => exact ⟨rfl, _, all, offers⟩
          | ok names => exact (ensures_pure _).2 ⟨rfl, _, all, offers⟩
    · rw [cut]
      rw [whole] at last
      refine (ensures_bind _ _).2 ((memberNames_ensures depth owner).mono ?_)
      rintro result after final ⟨rfl, asked, exchanged, offers⟩
      have completes := completes_of_offers given last (.dot owner plain) offers
      cases result with
      | error error => exact ⟨rfl, asked, exchanged, completes⟩
      | ok names => exact (ensures_pure _).2 ⟨rfl, asked, exchanged, completes⟩
  · exact ⟨rfl, [], (List.append_nil _).symm, .unknown used meaningless⟩

end Link

namespace Debugger

open Operation

/-- What comes of completing a text, `ended` telling whether the engine's session is over. -/
inductive Completion (debugger : Debugger) (ended : Bool) (text : String) (frame : Option Int) :
    List Exchange → Except DebugError (List CompletionItem) → Prop where
  /-- No engine is connected, and nothing is asked for. -/
  | refused {error : DebugError}
    (apart : ∀ state, debugger.reported ended = .connected state → debugger.link = none) :
    Completion debugger ended text frame [] (.error error)
  /-- The engine is asked for names. -/
  | asked {state : RunState} {link : Link} {asked : List Exchange}
    {result : Except DebugError (List CompletionItem)}
    (connected : debugger.reported ended = .connected state) (linked : debugger.link = some link)
    (completes : link.Completes text frame asked result) :
    Completion debugger ended text frame asked result

/-- Whatever a debugger is asked to complete, and whatever its engine answers: without an engine
nothing is asked for, and with one the names that are given are those that complete the word at the
end of the text, in the order in which the engine tells of them. -/
theorem completions_complete (rule : AnswerRule σ) (debugger : Debugger) (world : σ)
    (text : String) (frame : Option Int) :
    (completions text frame).Ensures rule.recorded debugger (world, []) fun result after last =>
      after = debugger ∧ ∃ checks asked, last.2 = checks ++ asked ∧
        (∀ exchange ∈ checks, exchange.request = .isClosed) ∧
          Completion debugger (rule .isClosed world).1 text frame asked result := by
  have told : (rule.recorded .isClosed (world, [])).1 = (rule .isClosed world).1 := rfl
  refine (ensures_bind _ _).2 ((connectedState_ensures told "complete").mono ?_)
  rintro _ debugger last ⟨rfl, rfl, where_⟩
  have checked : ∀ exchange ∈ last.2, exchange.request = .isClosed := by
    rcases where_ with rfl | rfl
    · exact List.forall_mem_nil _
    · exact List.forall_mem_singleton.2 rfl
  rw [reportedState]
  cases reported : debugger.reported (rule .isClosed world).1 with
  | idle | launching | attaching | closed =>
      have apart (state : RunState)
          (connected : debugger.reported (rule .isClosed world).1 = .connected state) :
          debugger.link = none := by
        cases reported.symm.trans connected
      exact ⟨rfl, last.2, [], (List.append_nil _).symm, checked, .refused apart⟩
  | connected state =>
      refine (ensures_bind _ _).2 (knownLink_ensures.mono ?_)
      rintro _ debugger last ⟨rfl, rfl, rfl⟩
      cases linked : debugger.link with
      | none => exact ⟨rfl, _, [], (List.append_nil _).symm, checked, .refused fun _ _ => linked⟩
      | some link =>
          refine (ensures_onLink _ _).2 ((Link.completions_ensures text frame).mono ?_)
          rintro result _ final ⟨rfl, asked, exchanged, completes⟩
          exact ⟨by rw [← linked], _, asked, exchanged, checked, .asked reported linked completes⟩

end Debugger
end DebugBridge
