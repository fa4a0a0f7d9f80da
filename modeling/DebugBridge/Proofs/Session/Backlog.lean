import DebugBridge.Proofs.Protocol.Remainder
import DebugBridge.Proofs.Session.Handling
import DebugBridge.Proofs.Session.Reading

/-!
# What a session has not decoded yet

A session takes off its buffer whatever can be taken off, each time that bytes arrive.  The main
statement says of any bytes at all, frames or not and cut in any way, that this comes to an end, that
every byte is counted once, and that what is held back is never more than the largest frame.
-/

namespace DebugBridge
namespace Session

open DebugBridge.Frame

variable {session : Session}

/-! ## In any run -/

/-- What a session handles leaves the buffer alone or empties it. -/
theorem Handled.waiting {next : Session × List Effect} (handled : Handled session next)
    (waiting : Waiting session.buffer) : Waiting next.1.buffer := by
  cases handled with
  | goesOn same _ => exact same.buffer ▸ waiting
  | ends _ _ _ => exact .length (Nat.zero_le _) (List.forall_mem_nil _)

theorem waiting_step (waiting : Waiting session.buffer) (input : Input) :
    Waiting (session.step input).1.buffer := by
  cases input with
  | submit _ | interrupt _ | close | released =>
      simp only [step, call, post]
      split <;> exact waiting
  | abandon call =>
      rw [step, abandon]
      split <;> exact waiting
  | jammed => exact waiting
  | received bytes =>
      rw [step, receive]
      split
      · exact (draining_drain _).waiting
      · exact waiting
  | disconnected =>
      rw [step, endOfBytes]
      split
      · exact .length (Nat.zero_le _) (List.forall_mem_nil _)
      · exact waiting
  | attend =>
      rw [step]
      obtain ⟨eq, -⟩ | ⟨message, rest, -, -, eq⟩ := session.attend_cases
      · rw [eq]
        exact waiting
      · rw [eq]
        exact (handled_handleMessage _ message).waiting waiting
  | listen =>
      rw [step]
      obtain ⟨eq, -⟩ | ⟨incoming, rest, -, -, eq⟩ := session.listen_cases
      · rw [eq]
        exact waiting
      · rw [eq]
        exact (handled_handleIncoming _ incoming).waiting waiting

theorem waiting_run (waiting : Waiting session.buffer) (inputs : List Input) :
    Waiting (session.run inputs).1.buffer := by
  induction inputs generalizing session with
  | nil => exact waiting
  | cons input rest ih => exact ih (waiting_step waiting input)

/-! ## In any chunks -/

/-- What comes of taking off a buffer whatever can be taken off. -/
structure Drains (buffer : List UInt8) (items : List (Item × Nat)) (left : List UInt8) :
    Prop where
  /-- It comes to an end, where decoding asks for more. -/
  ends : Draining buffer items left
  /-- Nothing else comes of it. -/
  only : ∀ {others : List (Item × Nat)} {last : List UInt8}, Draining buffer others last →
    others = items ∧ last = left
  /-- There are no more turns than bytes. -/
  brief : items.length ≤ buffer.length
  /-- After every turn what was taken off and what is still there add up. -/
  accounts : ∀ {front back : List (Item × Nat)}, items = front ++ back →
    ∃ middle, Draining middle back left ∧ size front + middle.length = buffer.length

/-- What comes of chunks that arrive one by one. -/
structure KeepsUp (chunks : List (List UInt8)) (items : List (Item × Nat)) (left : List UInt8) :
    Prop where
  /-- After each of them everything is taken off that can be. -/
  ends : Reading [] chunks items left
  /-- Nothing else comes of it. -/
  only : ∀ {others : List (Item × Nat)} {last : List UInt8}, Reading [] chunks others last →
    others = items ∧ last = left
  /-- Each item took some bytes. -/
  progress : ∀ entry ∈ items, 0 < entry.2
  /-- What was taken off and what is left add up to what has arrived. -/
  accounts : size items + left.length = chunks.flatten.length
  /-- What is left came last. -/
  latest : left = chunks.flatten.drop (size items)
  /-- It is a part of a length, or of a payload with its header. -/
  waiting : Waiting left
  /-- It is no longer than the largest payload with the longest header. -/
  bounded : left.length ≤ maxSize + 11
  /-- A session that reads the chunks gets the same and holds the same back. -/
  received : ∀ {session : Session}, session.readable = true → session.buffer = [] →
    chunks.foldl receive session =
      { session with
        incoming := session.incoming ++ items.map fun entry => .item entry.1
        buffer := left }

theorem drains_drain (buffer : List UInt8) : Drains buffer (drain buffer).1 (drain buffer).2 where
  ends := draining_drain buffer
  only := by
    intro others last other
    rw [other.eq_drain]
    exact ⟨rfl, rfl⟩
  brief := (draining_drain buffer).length_le
  accounts := by
    intro front back split
    have whole := draining_drain buffer
    rw [split] at whole
    obtain ⟨rest, fits⟩ := whole.split
    refine ⟨_, rest, ?_⟩
    rw [List.length_drop]
    exact Nat.add_sub_of_le fits

theorem keepsUp_drainChunks (chunks : List (List UInt8)) :
    KeepsUp chunks (drainChunks [] chunks).1 (drainChunks [] chunks).2 := by
  have ends := reading_drainChunks [] chunks
  have waiting : Waiting (drainChunks [] chunks).2 :=
    ends.waiting (.length (Nat.zero_le _) (List.forall_mem_nil _))
  refine ⟨ends, ?_, ends.pos, ends.left_eq.2, ends.left_eq.1, waiting, waiting.length_le, ?_⟩
  · intro others last other
    rw [other.eq_drainChunks]
    exact ⟨rfl, rfl⟩
  · intro session readable empty
    rw [foldl_receive readable, empty]

/-- Of any buffer decoding takes off at least one byte and no more than there are, or it asks for
more, which it does exactly where a length or a payload is not yet there.  So whatever arrives, in
whatever chunks, all that can be taken off is taken off after finitely many turns, no byte is lost or
counted twice, and no session ever holds back more than a frame of the largest size. -/
theorem decodes_steadily :
    (∀ buffer item consumed, (decode buffer).item? = some (item, consumed) →
      0 < consumed ∧ consumed ≤ buffer.length) ∧
    (∀ buffer, decode buffer = .incomplete ↔ Waiting buffer) ∧
    (∀ buffer, ∃ items left, Drains buffer items left) ∧
    (∀ chunks, ∃ items left, KeepsUp chunks items left) ∧
    ∀ inputs, Waiting (initial.run inputs).1.buffer ∧
      (initial.run inputs).1.buffer.length ≤ maxSize + 11 := by
  refine ⟨fun _ _ _ => consumed_bounds, fun _ => decode_eq_incomplete_iff,
    fun buffer => ⟨_, _, drains_drain buffer⟩, fun chunks => ⟨_, _, keepsUp_drainChunks chunks⟩, ?_⟩
  intro inputs
  have waiting : Waiting (initial.run inputs).1.buffer :=
    waiting_run (.length (Nat.zero_le _) (List.forall_mem_nil _)) inputs
  exact ⟨waiting, waiting.length_le⟩

end Session
end DebugBridge
