import DebugBridge.Proofs.Session.Reading
import DebugBridge.Proofs.Session.Shutdown

/-!
# What the engine sent

An engine may drop the connection while much of what it sent still waits.  The main statement says
that all of it takes effect, in the order of the wire, before the end is reported, if nobody asks
for the end and no write fails first.  What the engine sent is what decoding takes off its bytes
from the beginning: a frame behind one that was left unfinished is a part of that one.
-/

namespace DebugBridge

open DebugBridge.Frame

/-- The bytes that come before the connection ends, chunk by chunk. -/
def arrivals : List Input → List (List UInt8)
  | [] => []
  | .received bytes :: rest => bytes :: arrivals rest
  | .disconnected :: _ => []
  | _ :: rest => arrivals rest

/-- Everything that decoding takes off the bytes that come before the connection ends. -/
def sent (inputs : List Input) : List Item := (drainChunks [] (arrivals inputs)).1.map Prod.fst

/-- What was taken off the buffer, if it was not the end of the connection that came. -/
def Incoming.item? : Incoming → Option Item
  | .item found => some found
  | .ended => none

/-- Whether an effect is that of something that has come from the engine, other than its end. -/
def Effect.isHeard : Effect → Bool
  | .answered _ _ => true
  | .event .closed => false
  | .event _ => true
  | .write _ _ _ _ | .reply _ _ | .returned _ => false

/-- What has come from the engine takes effect: a packet is reported as it is, and an answer
completes a command or is reported as one to no pending command. -/
inductive Conveys : Item → Effect → Prop
  /-- A greeting. -/
  | init (packet : InitPacket) : Conveys (.packet (.init packet)) (.event (.init packet))
  /-- Output of the script. -/
  | stream (packet : StreamPacket) : Conveys (.packet (.stream packet)) (.event (.stream packet))
  /-- A notification. -/
  | notify (element : Element) : Conveys (.packet (.notify element)) (.event (.notify element))
  /-- Something that cannot be used. -/
  | fault (error : ProtocolError) : Conveys (.fault error) (.event (.fault error))
  /-- The answer to a pending command. -/
  | answer (call : Nat) (response : Response) :
      Conveys (.packet (.response response)) (.answered call response)
  /-- An answer to no pending command. -/
  | unmatched (response : Response) : Conveys (.packet (.response response))
      (.event (.fault (.unmatchedTransaction response.id)))

/-- The output that a packet carries. -/
def Packet.stream? : Packet → Option StreamPacket
  | .stream output => some output
  | _ => none

/-- The answer that a packet carries. -/
def Packet.response? : Packet → Option Response
  | .response answer => some answer
  | _ => none

theorem Packet.eq_of_stream? {packet : Packet} {output : StreamPacket}
    (found : packet.stream? = some output) : packet = .stream output := by
  cases packet <;> cases found
  rfl

theorem ok_of_toOption {ε α : Type} {result : Except ε α} {value : α}
    (found : result.toOption = some value) : result = .ok value := by
  cases result <;> cases found
  rfl

namespace Session

variable {session after : Session}

/-- The effects of what has come from the engine. -/
def heard (effects : List Effect) : List Effect := effects.filter Effect.isHeard

@[simp] theorem heard_append (effects more : List Effect) :
    heard (effects ++ more) = heard effects ++ heard more :=
  List.filter_append effects more

theorem heard_of_isLate {effects : List Effect} (late : ∀ effect ∈ effects, effect.isLate = true) :
    heard effects = [] := by
  rw [heard, List.filter_eq_nil_iff]
  intro effect member
  have answer := late effect member
  cases effect with
  | reply | returned => simp [Effect.isHeard]
  | write | answered | event => cases answer

theorem heard_teardown : heard session.teardown.2 = [] := by
  obtain ⟨told, eq, late⟩ := session.teardown_eq
  rw [eq, heard_append, heard_of_isLate late]
  rfl

theorem heard_tell {result : Except SessionError Response} {call : Nat} :
    heard (session.tell result call) = [] := by
  rw [tell]
  split <;> rfl

theorem heard_write (lane : Lane) (queued : Queued) :
    heard (session.write lane queued).2 = [] := by
  rw [write]
  split
  · rw [andThen, heard_append, heard_of_isLate isLate_keep]
    rfl
  · rw [andThen, heard_append, heard_of_isLate isLate_tellClosed, heard_teardown]
    rfl

theorem heard_pump : heard session.pump.2 = [] := by
  rw [pump]
  split
  · rfl
  · split
    · rfl
    · exact heard_write .turn _

/-- A message is nothing that has come from the engine. -/
theorem heard_handleMessage (message : Message) : heard (session.handleMessage message).2 = [] := by
  cases message with
  | send lane queued =>
      cases lane with
      | turn => exact heard_pump
      | urgent => exact heard_write .urgent queued
  | close call =>
      have ended : heard (session.teardown.2 ++ [.returned call]) = [] := by
        rw [heard_append, heard_teardown]
        rfl
      exact ended
  | released => exact heard_teardown

/-- What has come from the engine has one effect. -/
theorem heard_handleItem (item : Item) :
    ∃ effect, heard (session.handleItem item).2 = [effect] ∧ Conveys item effect := by
  cases item with
  | fault error => exact ⟨_, rfl, .fault error⟩
  | packet packet =>
      cases packet with
      | init packet => exact ⟨_, rfl, .init packet⟩
      | stream packet => exact ⟨_, rfl, .stream packet⟩
      | notify element => exact ⟨_, rfl, .notify element⟩
      | response response =>
          rw [handleItem, handleResponse]
          split
          · rename_i pending after _
            refine ⟨.answered pending.call response, ?_, .answer pending.call response⟩
            rw [andThen, ← List.singleton_append, heard_append, heard_append, heard_tell,
              heard_pump]
            rfl
          · exact ⟨_, rfl, .unmatched response⟩

/-! ## What is to come -/

/-- What has come from the engine and was not taken up yet. -/
def unheard (session : Session) : List Item := session.incoming.filterMap Incoming.item?

/-- What waits, and what will be taken off the buffer with bytes that are still to come. -/
def coming (session : Session) (inputs : List Input) : List Item :=
  session.unheard ++
    if session.readable = true then
      (drainChunks session.buffer (arrivals inputs)).1.map Prod.fst
    else []

/-- While a session goes on, the end of the connection comes last and nothing is read after it. -/
def Arranged (session : Session) : Prop :=
  ∃ items : List Item, session.incoming =
    items.map .item ++ if session.readable = true then [] else [.ended]

theorem unheard_of_incoming {items : List Item} {rest : List Incoming}
    (incoming : session.incoming = items.map .item ++ rest) :
    session.unheard = items ++ rest.filterMap Incoming.item? := by
  rw [unheard, incoming, List.filterMap_append, List.filterMap_map]
  simp [Function.comp_def, Incoming.item?]

theorem coming_initial (inputs : List Input) : initial.coming inputs = sent inputs := rfl

theorem SameWaiting.coming (same : SameWaiting session after) (inputs : List Input) :
    after.coming inputs = session.coming inputs := by
  rw [Session.coming, Session.coming, unheard, unheard, same.incoming, same.readable, same.buffer]

theorem SameWaiting.arranged (same : SameWaiting session after) (arranged : Arranged session) :
    Arranged after := by
  rw [Arranged, same.incoming, same.readable]
  exact arranged

/-- Behind something that waits the rest is arranged as well. -/
theorem Arranged.tail {item : Item} {rest : List Incoming} (arranged : Arranged session)
    (incoming : session.incoming = .item item :: rest) :
    Arranged { session with incoming := rest } := by
  obtain ⟨items, eq⟩ := arranged
  rw [incoming] at eq
  cases items with
  | nil =>
      split at eq
      · cases eq
      · cases eq
  | cons first items =>
      obtain ⟨-, eq⟩ := List.cons.inj eq
      exact ⟨items, eq⟩

/-- When the end of the connection is what has come first, nothing is to come. -/
theorem coming_of_ended {rest : List Incoming} (arranged : Arranged session)
    (incoming : session.incoming = .ended :: rest) (inputs : List Input) :
    session.coming inputs = [] := by
  obtain ⟨items, eq⟩ := arranged
  have unheard := unheard_of_incoming eq
  rw [incoming] at eq
  cases items with
  | nil =>
      split at eq
      · cases eq
      · rename_i unread
        rw [if_neg unread] at unheard
        rw [coming, unheard, if_neg unread]
        rfl
  | cons first items => cases (List.cons.inj eq).1

theorem coming_of_item {item : Item} {rest : List Incoming}
    (incoming : session.incoming = .item item :: rest) (inputs : List Input) :
    session.coming inputs = item :: { session with incoming := rest }.coming inputs := by
  rw [coming, coming, unheard, unheard, incoming]
  rfl

/-- What an input makes heard is what is to come first, and what waits stays arranged. -/
structure Relays (session : Session) (input : Input) (rest : List Input) : Prop where
  arranged : Arranged (session.step input).1
  conveys : ∃ now, List.Forall₂ Conveys now (heard (session.step input).2) ∧
    session.coming (input :: rest) = now ++ (session.step input).1.coming rest

/-- Bytes are taken apart at once, and nothing is heard of them yet. -/
theorem relays_received (arranged : Arranged session) (bytes : List UInt8) (rest : List Input) :
    Relays session (.received bytes) rest := by
  by_cases readable : session.readable = true
  · obtain ⟨items, eq⟩ := arranged
    rw [if_pos readable, List.append_nil] at eq
    refine ⟨⟨items ++ (drain (session.buffer ++ bytes)).1.map Prod.fst, ?_⟩, [], ?_, ?_⟩
    · simp [step, receive, eq, readable]
    · rw [step, receive, if_pos readable]
      exact .nil
    · simp [step, receive, coming, unheard, readable, arrivals, drainChunks, Function.comp_def,
        Incoming.item?]
  · have stays : session.step (.received bytes) = (session, []) := by
      rw [step, receive, if_neg readable]
    refine ⟨stays ▸ arranged, [], by rw [stays]; exact .nil, ?_⟩
    simp [stays, coming, readable]

theorem relays_disconnected (arranged : Arranged session) (rest : List Input) :
    Relays session .disconnected rest := by
  by_cases readable : session.readable = true
  · obtain ⟨items, eq⟩ := arranged
    rw [if_pos readable, List.append_nil] at eq
    refine ⟨⟨items, by simp [step, endOfBytes, eq, readable]⟩, [], ?_, ?_⟩
    · rw [step, endOfBytes, if_pos readable]
      exact .nil
    · simp [step, endOfBytes, coming, unheard, readable, arrivals, drainChunks, Incoming.item?]
  · have stays : session.step .disconnected = (session, []) := by
      rw [step, endOfBytes, if_neg readable]
    refine ⟨stays ▸ arranged, [], by rw [stays]; exact .nil, ?_⟩
    simp [stays, coming, readable]

/-- A message that is taken up makes nothing heard. -/
theorem relays_attend (arranged : Arranged session)
    (goesOn : (session.step .attend).1.isOpen = true) (rest : List Input) :
    Relays session .attend rest := by
  rw [step] at goesOn
  obtain ⟨eq, _⟩ | ⟨message, later, _, _, eq⟩ := session.attend_cases
  · refine ⟨?_, [], ?_, ?_⟩ <;> rw [step, eq]
    · exact arranged
    · exact .nil
    · rfl
  · rw [eq] at goesOn
    have same := (handled_handleMessage _ message).same_of_isOpen goesOn
    refine ⟨?_, [], ?_, ?_⟩ <;> rw [step, eq]
    · exact same.arranged arranged
    · rw [heard_handleMessage]
      exact .nil
    · exact (same.coming rest).symm

/-- What is taken up first is heard first. -/
theorem relays_listen (arranged : Arranged session)
    (goesOn : (session.step .listen).1.isOpen = true) (rest : List Input) :
    Relays session .listen rest := by
  rw [step] at goesOn
  obtain ⟨eq, _⟩ | ⟨incoming, later, _, waits, eq⟩ := session.listen_cases
  · refine ⟨?_, [], ?_, ?_⟩ <;> rw [step, eq]
    · exact arranged
    · exact .nil
    · rfl
  · rw [eq] at goesOn
    cases incoming with
    | ended => cases goesOn
    | item item =>
        have same := (handled_handleItem { session with incoming := later } item).same_of_isOpen
          goesOn
        obtain ⟨effect, alone, conveys⟩ := { session with incoming := later }.heard_handleItem item
        have one : heard ({ session with incoming := later }.handleIncoming (.item item)).2 =
            [effect] := alone
        refine ⟨?_, [item], ?_, ?_⟩ <;> rw [step, eq]
        · exact same.arranged (arranged.tail waits)
        · rw [one]
          exact .cons conveys .nil
        · have kept := same.coming rest
          have first := coming_of_item waits rest
          exact first.trans (congrArg (item :: ·) kept.symm)

/-- What one input makes heard is what is to come first, as long as the session goes on. -/
theorem step_conveys (isOpen : session.isOpen = true) (arranged : Arranged session)
    (input : Input) (goesOn : (session.step input).1.isOpen = true) (rest : List Input) :
    Relays session input rest := by
  cases input with
  | submit _ | interrupt _ | close | released =>
      constructor <;> simp only [step, call, post, isOpen, if_true]
      · exact arranged
      · exact ⟨[], .nil, rfl⟩
  | abandon call =>
      constructor <;> rw [step, abandon] <;> split
      · exact arranged
      · exact arranged
      · exact ⟨[], .nil, rfl⟩
      · exact ⟨[], .nil, rfl⟩
  | jammed => exact ⟨arranged, [], .nil, rfl⟩
  | received bytes => exact relays_received arranged bytes rest
  | disconnected => exact relays_disconnected arranged rest
  | attend => exact relays_attend arranged goesOn rest
  | listen => exact relays_listen arranged goesOn rest

/-! ## The end of a run -/

theorem arrivals_eq_nil {inputs : List Input} (none : ∀ bytes, .received bytes ∉ inputs) :
    arrivals inputs = [] := by
  induction inputs with
  | nil => rfl
  | cons input rest ih =>
      have later := ih fun bytes member => none bytes (List.mem_cons_of_mem input member)
      cases input with
      | received bytes => exact absurd List.mem_cons_self (none bytes)
      | disconnected => rfl
      | submit | interrupt | close | released | abandon | jammed | attend | listen => exact later

theorem coming_eq_nil {inputs : List Input} (none : ∀ bytes, .received bytes ∉ inputs)
    (empty : session.unheard = []) : session.coming inputs = [] := by
  rw [coming, empty, arrivals_eq_nil none]
  split <;> rfl

/-- A session that can write goes on when it takes up a command. -/
theorem unheard_send {lane : Lane} {queued : Queued} (isOpen : session.isOpen = true)
    (isWritable : session.writable = true) :
    (session.handleMessage (.send lane queued)).1.unheard = session.unheard := by
  have goesOn : (session.handleMessage (.send lane queued)).1.isOpen = true := by
    rw [← Bool.not_eq_false, ended_send_iff isOpen, isWritable]
    simp
  have same := (handled_handleMessage session (.send lane queued)).same_of_isOpen goesOn
  rw [unheard, unheard, same.incoming]

theorem unheard_handleItem {item : Item} (isOpen : session.isOpen = true)
    (isWritable : session.writable = true) :
    (session.handleItem item).1.unheard = session.unheard := by
  have goesOn : (session.handleItem item).1.isOpen = true := by
    rw [← Bool.not_eq_false, ended_handleItem_iff isOpen, isWritable]
    simp
  have same := (handled_handleItem session item).same_of_isOpen goesOn
  rw [unheard, unheard, same.incoming]

/-- An input at which a write fails is the last one that matters: nothing waits behind it. -/
def SparedAt (session : Session) (input : Input) (rest : List Input) : Prop :=
  FailsToWrite session input →
    (∀ bytes, .received bytes ∉ rest) ∧ (session.unjammed.step input).1.unheard = []

/-- A session that ends with a message could not write a command, and nothing was to come. -/
theorem attend_end_conveys (isOpen : session.isOpen = true)
    (ended : (session.step .attend).1.isOpen = false)
    (plain : ∀ message ∈ session.mailbox, message.isFinal = false) {rest : List Input}
    (spared : SparedAt session .attend rest) :
    List.Forall₂ Conveys (session.coming (.attend :: rest)) (heard (session.step .attend).2) := by
  rw [step] at ended ⊢
  obtain ⟨eq, _⟩ | ⟨message, later, _, mailbox, eq⟩ := session.attend_cases
  · rw [eq] at ended
    cases isOpen.symm.trans ended
  · rw [eq] at ended ⊢
    rw [heard_handleMessage]
    cases message with
    | close | released =>
        have final := plain _ (mailbox ▸ List.mem_cons_self)
        cases final
    | send lane queued =>
        obtain ⟨jammed, writes⟩ := (ended_send_iff (by exact isOpen) lane queued).1 ended
        have taken : session.unjammed.step .attend =
            { session.unjammed with mailbox := later }.handleMessage (.send lane queued) :=
          attend_of_cons isOpen mailbox
        obtain ⟨none, empty⟩ := spared ⟨jammed, taken ▸ writes⟩
        rw [taken, unheard_send (by exact isOpen) rfl] at empty
        have nothing : session.coming rest = [] := coming_eq_nil none empty
        have same : session.coming (.attend :: rest) = session.coming rest := rfl
        rw [same, nothing]
        exact .nil

/-- A session that ends with something from the engine was told of the end, or could not write after
the last thing to come. -/
theorem listen_end_conveys (isOpen : session.isOpen = true) (arranged : Arranged session)
    (ended : (session.step .listen).1.isOpen = false) {rest : List Input}
    (spared : SparedAt session .listen rest) :
    List.Forall₂ Conveys (session.coming (.listen :: rest)) (heard (session.step .listen).2) := by
  rw [step] at ended ⊢
  obtain ⟨eq, _⟩ | ⟨incoming, later, _, waits, eq⟩ := session.listen_cases
  · rw [eq] at ended
    cases isOpen.symm.trans ended
  · rw [eq] at ended ⊢
    cases incoming with
    | ended =>
        have silent : heard ({ session with incoming := later }.handleIncoming .ended).2 = [] :=
          heard_teardown
        rw [coming_of_ended arranged waits, silent]
        exact .nil
    | item item =>
        obtain ⟨jammed, writes⟩ := (ended_handleItem_iff (by exact isOpen) item).1 ended
        have taken : session.unjammed.step .listen =
            { session.unjammed with incoming := later }.handleItem item := by
          have first : session.unjammed.incoming = .item item :: later := waits
          exact listen_of_cons (by exact isOpen) first
        obtain ⟨none, empty⟩ := spared ⟨jammed, taken ▸ writes⟩
        rw [taken, unheard_handleItem (by exact isOpen) rfl] at empty
        have nothing : { session with incoming := later }.coming rest = [] :=
          coming_eq_nil none empty
        obtain ⟨effect, alone, conveys⟩ := { session with incoming := later }.heard_handleItem item
        have one : heard ({ session with incoming := later }.handleIncoming (.item item)).2 =
            [effect] := alone
        have same : session.coming (.listen :: rest) = session.coming rest := rfl
        rw [same, coming_of_item waits rest, nothing, one]
        exact .cons conveys .nil

/-- What one input makes heard is all that is to come, when the session ends with it. -/
theorem end_conveys (isOpen : session.isOpen = true) (arranged : Arranged session)
    {input : Input} (ended : (session.step input).1.isOpen = false)
    (plain : ∀ message ∈ session.mailbox, message.isFinal = false) {rest : List Input}
    (spared : SparedAt session input rest) :
    List.Forall₂ Conveys (session.coming (input :: rest)) (heard (session.step input).2) := by
  cases input with
  | submit _ | interrupt _ | close | released =>
      simp [step, call, post, isOpen] at ended
  | abandon call =>
      cases ((session.sameCommands_abandon call).isOpen.trans isOpen).symm.trans ended
  | received bytes =>
      cases ((session.sameCommands_receive bytes).isOpen.trans isOpen).symm.trans ended
  | disconnected => cases (session.sameCommands_endOfBytes.isOpen.trans isOpen).symm.trans ended
  | jammed => cases isOpen.symm.trans ended
  | attend => exact attend_end_conveys isOpen ended plain spared
  | listen => exact listen_end_conveys isOpen arranged ended spared

/-- What waits in the mailbox was there before or has been asked for since. -/
theorem mailbox_of_moves {messages : List Message} {log : List Effect}
    (moves : Moves session messages log after) :
    after.mailbox ⊆ session.mailbox ++ messages := by
  induction moves with
  | refl => exact List.subset_append_left _ _
  | @tail messages more log effects middle after _ move ih =>
      have kept : after.mailbox ⊆ middle.mailbox ++ more := by
        cases move with
        | outside same => exact same.mailbox ▸ List.subset_append_left _ _
        | post message _ => exact List.Subset.refl _
        | enqueue mailbox | writeUrgent _ mailbox | takeUp mailbox _ | loseUrgent mailbox =>
            rw [mailbox]
            exact List.subset_append_of_subset_left _ (List.subset_cons_self _ _)
        | teardown => exact List.nil_subset _
        | _ => exact List.subset_append_left _ _
      intro message member
      rw [← List.append_assoc]
      rcases List.mem_append.1 (kept member) with before | new
      · exact List.mem_append_left more (ih before)
      · exact List.mem_append_right _ new

/-- Nothing that matters waits at an input of a run at which a write fails. -/
def Spared (session : Session) (inputs : List Input) : Prop :=
  ∀ {earlier later : List Input} {input : Input}, inputs = earlier ++ input :: later →
    SparedAt (session.run earlier).1 input later

theorem Spared.tail {input : Input} {rest : List Input} (spared : Spared session (input :: rest)) :
    Spared (session.step input).1 rest := by
  rintro earlier later next rfl
  have split : input :: (earlier ++ next :: later) = (input :: earlier) ++ next :: later := rfl
  exact spared split

theorem coming_nil (session : Session) : session.coming [] = session.unheard := by
  rw [coming, arrivals]
  split <;> exact List.append_nil _

/-- Until a session ends it has taken up what was to come first, and when it ends it has taken up
everything. -/
theorem run_conveys (isOpen : session.isOpen = true) (arranged : Arranged session)
    {inputs : List Input}
    (plain : ∀ message ∈ session.mailbox ++ asked session.nextCall inputs,
      message.isFinal = false)
    (spared : Spared session inputs) :
    ((session.run inputs).1.isOpen = true → ∃ now,
        List.Forall₂ Conveys now (heard (session.run inputs).2) ∧
          session.coming inputs = now ++ (session.run inputs).1.unheard) ∧
      ((session.run inputs).1.isOpen = false →
        List.Forall₂ Conveys (session.coming inputs) (heard (session.run inputs).2)) := by
  induction inputs generalizing session with
  | nil =>
      refine ⟨fun _ => ⟨[], .nil, session.coming_nil⟩, fun ended => ?_⟩
      cases isOpen.symm.trans ended
  | cons input rest ih =>
      have moves := session.step_moves input
      rw [asked_cons, ← nextCall_of_moves moves, ← List.append_assoc] at plain
      rw [run]
      by_cases goesOn : (session.step input).1.isOpen = true
      · obtain ⟨arranged', now, first, eq⟩ := step_conveys isOpen arranged input goesOn rest
        have plain' : ∀ message ∈ (session.step input).1.mailbox ++
            asked (session.step input).1.nextCall rest, message.isFinal = false := by
          intro message member
          rcases List.mem_append.1 member with waits | later
          · exact plain message (List.mem_append_left _ (mailbox_of_moves moves waits))
          · exact plain message (List.mem_append_right _ later)
        obtain ⟨going, ending⟩ := ih goesOn arranged' plain' spared.tail
        simp only [andThen, heard_append, eq]
        refine ⟨fun isOpen => ?_, fun ended => List.rel_append first (ending ended)⟩
        obtain ⟨later, heard, eq'⟩ := going isOpen
        exact ⟨now ++ later, List.rel_append first heard, by rw [eq', List.append_assoc]⟩
      · have ended := Bool.eq_false_iff.2 goesOn
        obtain ⟨stays, late⟩ := late_run ended rest
        have all := end_conveys isOpen arranged ended
          (fun message member => plain message
            (List.mem_append_left _ (List.mem_append_left _ member)))
          (spared (List.nil_append (input :: rest)).symm)
        refine ⟨fun isOpen => absurd (stays.symm.trans isOpen) Bool.false_ne_true, fun _ => ?_⟩
        simpa only [andThen, heard_append, heard_of_isLate late, List.append_nil] using all

/-! ## Writing -/

/-- A run in which nobody asks for the end, and in which no write fails while anything that the
engine has sent waits. -/
structure Undisturbed (inputs : List Input) : Prop where
  /-- No call asks for the end. -/
  unclosed : .close ∉ inputs
  /-- Somebody can make calls. -/
  held : .released ∉ inputs
  /-- When a write fails everything has been taken up. -/
  spared : Spared initial inputs

theorem not_final_of_asked {inputs : List Input} (unclosed : .close ∉ inputs)
    (held : .released ∉ inputs) (call : Nat) :
    ∀ message ∈ asked call inputs, message.isFinal = false := by
  induction inputs generalizing call with
  | nil => simp [asked]
  | cons input rest ih =>
      have later := ih (fun member => unclosed (List.mem_cons_of_mem _ member))
        fun member => held (List.mem_cons_of_mem _ member)
      cases input with
      | submit _ | interrupt _ =>
          intro message member
          rcases List.mem_cons.1 member with rfl | member
          · rfl
          · exact later _ message member
      | close => exact absurd List.mem_cons_self unclosed
      | released => exact absurd List.mem_cons_self held
      | abandon | received | disconnected | jammed | attend | listen => exact later call

/-- Until a session ends it has taken up what the engine sent first, and when it ends everything. -/
theorem Undisturbed.conveys {inputs : List Input} (undisturbed : Undisturbed inputs) :
    ((initial.run inputs).1.isOpen = true → ∃ now,
        List.Forall₂ Conveys now (heard (initial.run inputs).2) ∧
          sent inputs = now ++ (initial.run inputs).1.unheard) ∧
      ((initial.run inputs).1.isOpen = false →
        List.Forall₂ Conveys (sent inputs) (heard (initial.run inputs).2)) := by
  have isOpen : initial.isOpen = true := rfl
  rw [← coming_initial]
  exact run_conveys isOpen ⟨[], rfl⟩
    (not_final_of_asked undisturbed.unclosed undisturbed.held 1) undisturbed.spared

/-- Output of a script, as the engine writes it. -/
def printed : List UInt8 :=
  Text.bytesOf "<stream type=\"stdout\" encoding=\"base64\">aGk=</stream>"

/-- The output, as a session reports it. -/
def output : StreamPacket := { kind := .stdout, encoding := "base64", data := "hi" }

/-- The beginning of a frame that announces more than there is. -/
def unfinished : List UInt8 := Text.bytesOf "999\x00<response/>\x00"

theorem packetOf_printed : packetOf printed = .ok (.stream output) := by
  have prints : (packetOf printed).toOption.bind Packet.stream? = some output := by decide +kernel
  obtain ⟨packet, parsed, stream⟩ := Option.bind_eq_some_iff.1 prints
  rw [ok_of_toOption parsed, Packet.eq_of_stream? stream]

end Session
end DebugBridge
