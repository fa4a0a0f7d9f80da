import DebugBridge.Proofs.Protocol.Frame
import DebugBridge.Session.Basic

/-!
# Reading a stream of frames

A session reads its connection in chunks.  The main statement says that what it gets out of a stream
of frames depends on the payloads only: one item for every frame, in order, as soon as the frame is
whole and never earlier.
-/

namespace DebugBridge
namespace Session

open DebugBridge.Frame

/-- Chunks that a session receives one by one go through its buffer. -/
theorem foldl_receive {session : Session} (readable : session.readable = true)
    (chunks : List (List UInt8)) :
    chunks.foldl receive session =
      { session with
        incoming := session.incoming ++
          (drainChunks session.buffer chunks).1.map fun entry => .item entry.1
        buffer := (drainChunks session.buffer chunks).2 } := by
  induction chunks generalizing session with
  | nil => simp [drainChunks]
  | cons chunk chunks ih =>
      have received : session.receive chunk =
          { session with
            incoming := session.incoming ++
              (drain (session.buffer ++ chunk)).1.map fun entry => .item entry.1
            buffer := (drain (session.buffer ++ chunk)).2 } := by
        rw [receive, if_pos readable]
      rw [List.foldl_cons, received, ih]
      · simp only [drainChunks, List.map_append, List.append_assoc]
      · exact readable

/-- A payload that is a text holds the packet that the text holds. -/
theorem packetOf_bytesOf (text : String) :
    packetOf (Text.bytesOf text) = Packet.parse text.toList := by
  rw [packetOf, Text.utf8?_bytesOf]

/-- What a reader makes of the frames of some payloads when they come in chunks. -/
structure ReadsStream (payloads chunks : List (List UInt8)) : Prop where
  /-- In the end every frame has given one item, with all its bytes, and nothing is left. -/
  finished : drainChunks [] chunks = (payloads.map taken, [])
  /-- Meanwhile exactly the frames that are whole have given theirs, and what is left is a proper
  part of the next one. -/
  meanwhile : ∀ {early late : List (List UInt8)}, chunks = early ++ late →
    ∃ arrived coming left, payloads = arrived ++ coming ∧
      early.flatten = arrived.flatMap encode ++ left ∧ Partial left coming ∧
      drainChunks [] early = (arrived.map taken, left)
  /-- A session that reads the chunks gets the same items. -/
  received : ∀ {session : Session}, session.readable = true → session.buffer = [] →
    chunks.foldl receive session =
      { session with
        incoming := session.incoming ++ payloads.map fun payload => .item (itemOf payload) }
  /-- The item of a text is what parsing the text gives. -/
  parsed : ∀ text : String, packetOf (Text.bytesOf text) = Packet.parse text.toList

/-- However a stream of frames is cut into chunks, its payloads come out one by one. -/
theorem readsStream {payloads chunks : List (List UInt8)}
    (small : ∀ payload ∈ payloads, payload.length ≤ maxSize)
    (cut : chunks.flatten = payloads.flatMap encode) : ReadsStream payloads chunks where
  finished := drainChunks_stream small cut
  meanwhile := by
    rintro early late rfl
    have front : [] ++ early.flatten <+: payloads.flatMap encode := by
      rw [List.nil_append, ← cut, List.flatten_append]
      exact List.prefix_append _ _
    exact drainChunks_of_isPrefix small (partial_nil payloads) front
  received := by
    intro session readable empty
    rw [foldl_receive readable, empty, drainChunks_stream small cut, List.map_map, ← empty]
    rfl
  parsed := packetOf_bytesOf

/-- Two payloads, one that is no text and one that looks like a header, cut within the headers and
with a chunk of nothing. -/
theorem readsStream_cut_headers :
    (∀ payload ∈ [[0xFF], [0x31, 0]], payload.length ≤ maxSize) ∧
      [[], [0x31], [0, 0xFF, 0, 0x32], [0, 0x31], [0, 0]].flatten =
        [[0xFF], [0x31, 0]].flatMap encode ∧
      ReadsStream [[0xFF], [0x31, 0]] [[], [0x31], [0, 0xFF, 0, 0x32], [0, 0x31], [0, 0]] :=
  ⟨by decide, by decide, readsStream (by decide) (by decide)⟩

end Session
end DebugBridge
