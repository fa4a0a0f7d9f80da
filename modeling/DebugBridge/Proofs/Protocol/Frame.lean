import DebugBridge.Protocol.Frame
import DebugBridge.Proofs.Text.Number
import DebugBridge.Proofs.Text.Utf8
import Mathlib.Data.List.Basic
import Mathlib.Data.List.TakeWhile

/-!
# Frames and how they arrive

A frame that has arrived whole is taken off the buffer as one item, whatever follows it, and a part
of a frame is left alone, wherever it was cut.  So the items of a stream of frames depend on the
payloads only: a reader gets them however the stream is cut into chunks, each as soon as the last
byte of its frame is there and no sooner.
-/

namespace DebugBridge
namespace Frame

/-! ## The header -/

/-- The digits of a number as bytes. -/
def digits (n : Nat) : List UInt8 := (toString n).toList.map fun c => UInt8.ofNat c.toNat

theorem digit_bounds {n : Nat} {c : Char} (member : c ∈ (toString n).toList) :
    48 ≤ c.toNat ∧ c.toNat ≤ 57 :=
  (Text.isDigit_iff c).1 (Text.isDigit_of_mem_toString member)

theorem bytesOf_toString (n : Nat) : Text.bytesOf (toString n) = digits n :=
  Text.utf8_of_le fun _ member => by
    have bounds := digit_bounds member
    omega

theorem isDigit_of_mem_digits {n : Nat} {b : UInt8} (member : b ∈ digits n) : isDigit b = true := by
  obtain ⟨c, inNumeral, rfl⟩ := List.mem_map.1 member
  have bounds := digit_bounds inNumeral
  have byte : (UInt8.ofNat c.toNat).toNat = c.toNat := Text.toNat_byte (by omega)
  simp only [isDigit, Bool.and_eq_true, decide_eq_true_eq, UInt8.le_iff_toNat_le]
  rw [byte]
  exact bounds

theorem ne_zero_of_isDigit {b : UInt8} (digit : isDigit b = true) : b ≠ 0 := by
  rintro rfl
  cases digit

theorem digits_ne_nil (n : Nat) : digits n ≠ [] := by
  rw [digits, ne_eq, List.map_eq_nil_iff]
  exact Text.toList_toString_ne_nil n

theorem length_digits {n : Nat} (small : n ≤ maxSize) : (digits n).length ≤ maxDigits := by
  have few : (Nat.toDigits 10 n).length ≤ 10 ↔ n < 10 ^ 10 :=
    Nat.length_toDigits_le_iff (by decide) (by decide)
  rw [digits, List.length_map, Text.toList_toString]
  refine few.2 (Nat.lt_of_le_of_lt small ?_)
  decide

/-- The bytes of a numeral stand for the same number as its characters. -/
theorem foldl_digits (n : Nat) :
    (digits n).foldl (fun value b => value * 10 + (b.toNat - 48)) 0 = n := by
  have value := Text.digitsValue_toString n
  rw [digits, List.foldl_map]
  refine Eq.trans ?_ value
  rw [Text.digitsValue]
  refine List.foldl_ext _ _ 0 fun value c member => ?_
  have bounds := digit_bounds member
  rw [Text.toNat_byte (by omega)]
  rfl

/-- The header of a payload that is not too large announces its length. -/
theorem length?_digits {n : Nat} (small : n ≤ maxSize) : length? (digits n) = some n := by
  have nonempty : (digits n).isEmpty = false := List.isEmpty_eq_false_iff.2 (digits_ne_nil n)
  have all : (digits n).all isDigit = true :=
    List.all_eq_true.2 fun _ member => isDigit_of_mem_digits member
  have short := length_digits small
  rw [length?, nonempty, all, foldl_digits]
  simp [short, small]

/-! ## One frame -/

/-- What a reader gets for a payload. -/
def itemOf (payload : List UInt8) : Item :=
  match packetOf payload with
  | .ok packet => .packet packet
  | .error error => .fault error

/-- What a reader gets for a payload, with the number of bytes of its frame. -/
def taken (payload : List UInt8) : Item × Nat := (itemOf payload, (encode payload).length)

theorem encode_eq (payload : List UInt8) :
    encode payload = digits payload.length ++ 0 :: (payload ++ [0]) := by
  rw [encode, bytesOf_toString, List.append_assoc, List.cons_append]

theorem length_encode (payload : List UInt8) :
    (encode payload).length = (digits payload.length).length + 1 + payload.length + 1 := by
  rw [encode_eq]
  simp only [List.length_append, List.length_cons, List.length_nil]
  omega

theorem digits_pass (n : Nat) : ∀ b ∈ digits n, (b != 0) = true := fun _ member =>
  bne_iff_ne.2 (ne_zero_of_isDigit (isDigit_of_mem_digits member))

/-- Without a zero byte there may be no end of a length yet. -/
theorem decode_unfinished {buffer : List UInt8} (nonzero : ∀ b ∈ buffer, (b != 0) = true) :
    decode buffer =
      if buffer.length > maxDigits || buffer.any (fun b => !isDigit b) then
        .malformed (.invalidLength (Text.textOf buffer)) buffer.length
      else .incomplete := by
  rw [decode, List.dropWhile_eq_nil_iff.2 nonzero]

/-- What ends in a zero byte is the header. -/
theorem decode_cut {header : List UInt8} (nonzero : ∀ b ∈ header, (b != 0) = true)
    (body : List UInt8) :
    decode (header ++ 0 :: body) =
      match length? header with
      | none => .malformed (.invalidLength (Text.textOf header)) (header.length + 1)
      | some length => decodeBody (header.length + 1) length body := by
  have front : (header ++ 0 :: body).takeWhile (· != 0) = header := by
    rw [List.takeWhile_append_of_pos nonzero]
    simp
  have back : (header ++ 0 :: body).dropWhile (· != 0) = 0 :: body := by
    rw [List.dropWhile_append_of_pos nonzero]
    simp
  cases read : length? header <;> simp only [decode, front, back, read]

/-- After a whole header the payload counts. -/
theorem decode_digits {n : Nat} (small : n ≤ maxSize) (body : List UInt8) :
    decode (digits n ++ 0 :: body) = decodeBody ((digits n).length + 1) n body := by
  rw [decode_cut (digits_pass n), length?_digits small]

/-- A whole frame is taken off, whatever follows it. -/
theorem item?_decode_encode {payload : List UInt8} (small : payload.length ≤ maxSize)
    (rest : List UInt8) : (decode (encode payload ++ rest)).item? = some (taken payload) := by
  rw [taken, length_encode, encode_eq, List.append_assoc, List.cons_append, decode_digits small,
    decodeBody, List.append_assoc, List.drop_left, List.take_left]
  simp only [List.cons_append, itemOf]
  cases packetOf payload <;> rfl

/-- A part of the digits of a length waits for more. -/
theorem decode_of_isPrefix_digits {n : Nat} (small : n ≤ maxSize) {part : List UInt8}
    (front : part <+: digits n) : decode part = .incomplete := by
  have digit : ∀ b ∈ part, isDigit b = true := fun b member =>
    isDigit_of_mem_digits (front.subset member)
  have short : part.length ≤ maxDigits := Nat.le_trans front.length_le (length_digits small)
  have plain : part.any (fun b => !isDigit b) = false := by
    simpa using digit
  rw [decode_unfinished fun b member => digits_pass n b (front.subset member), plain]
  simp [short]

/-- A part of a frame waits for more, wherever the frame is cut. -/
theorem decode_of_isPrefix_encode {payload : List UInt8} (small : payload.length ≤ maxSize)
    {part : List UInt8} (front : part <+: encode payload)
    (short : part.length < (encode payload).length) : decode part = .incomplete := by
  rw [encode_eq] at front
  obtain inDigits | ⟨more, rfl⟩ :=
    List.prefix_or_prefix_of_prefix front (List.prefix_append (digits payload.length) _)
  · exact decode_of_isPrefix_digits small inDigits
  · rw [List.prefix_append_right_inj, List.prefix_cons_iff] at front
    obtain rfl | ⟨body, rfl, inBody⟩ := front
    · rw [List.append_nil]
      exact decode_of_isPrefix_digits small (List.prefix_refl _)
    · have few : body.length ≤ payload.length := by
        rw [length_encode] at short
        simp only [List.length_append, List.length_cons] at short
        omega
      rw [decode_digits small, decodeBody, List.drop_eq_nil_of_le few]

/-! ## Streams -/

theorem drain_nil : drain [] = ([], []) := by
  rw [drain]
  rfl

/-- Nothing is taken off a part of a frame. -/
theorem drain_of_incomplete {buffer : List UInt8} (incomplete : decode buffer = .incomplete) :
    drain buffer = ([], buffer) := by
  by_cases empty : buffer = []
  · subst empty
    exact drain_nil
  · have none : (decode buffer).item? = none := by rw [incomplete]; rfl
    rw [drain, dif_neg empty]
    split
    · rfl
    · rename_i item consumed eq
      cases eq.symm.trans none

theorem drain_encode {payload : List UInt8} (small : payload.length ≤ maxSize)
    (rest : List UInt8) :
    drain (encode payload ++ rest) = (taken payload :: (drain rest).1, (drain rest).2) := by
  have nonempty : encode payload ++ rest ≠ [] := by
    rw [ne_eq, List.append_eq_nil_iff, ← List.length_eq_zero_iff, length_encode]
    omega
  have found := item?_decode_encode small rest
  rw [drain, dif_neg nonempty]
  split
  · rename_i eq
    cases eq.symm.trans found
  · rename_i item consumed eq
    obtain ⟨rfl, rfl⟩ := Prod.mk.inj (Option.some.inj (eq.symm.trans found))
    rw [List.drop_left]
    rfl

/-- A buffer holds a proper part of the next frame of a stream, or nothing at its end. -/
def Partial (buffer : List UInt8) : List (List UInt8) → Prop
  | [] => buffer = []
  | next :: _ => buffer <+: encode next ∧ buffer.length < (encode next).length

theorem partial_nil (payloads : List (List UInt8)) : Partial [] payloads := by
  cases payloads with
  | nil => rfl
  | cons next rest =>
      refine ⟨List.nil_prefix, ?_⟩
      rw [length_encode]
      exact Nat.zero_lt_succ _

theorem decode_of_partial {buffer : List UInt8} {payloads : List (List UInt8)}
    (small : ∀ payload ∈ payloads, payload.length ≤ maxSize) (part : Partial buffer payloads) :
    decode buffer = .incomplete := by
  cases payloads with
  | nil =>
      obtain rfl : buffer = [] := part
      rfl
  | cons next rest =>
      exact decode_of_isPrefix_encode (small next List.mem_cons_self) part.1 part.2

/-- The frames that are whole are taken off, and the part of the next one stays. -/
theorem drain_stream {arrived coming : List (List UInt8)} {buffer : List UInt8}
    (small : ∀ payload ∈ arrived ++ coming, payload.length ≤ maxSize)
    (part : Partial buffer coming) :
    drain (arrived.flatMap encode ++ buffer) = (arrived.map taken, buffer) := by
  induction arrived with
  | nil => exact drain_of_incomplete (decode_of_partial small part)
  | cons payload arrived ih =>
      have rest := ih fun other member => small other (List.mem_cons_of_mem payload member)
      rw [List.flatMap_cons, List.append_assoc, drain_encode (small payload List.mem_cons_self),
        rest]
      rfl

/-- Every beginning of a stream is some whole frames and a part of the next one. -/
theorem split_stream {payloads : List (List UInt8)} {bytes : List UInt8}
    (front : bytes <+: payloads.flatMap encode) :
    ∃ arrived coming buffer, payloads = arrived ++ coming ∧
      bytes = arrived.flatMap encode ++ buffer ∧ Partial buffer coming := by
  induction payloads generalizing bytes with
  | nil => exact ⟨[], [], [], rfl, List.prefix_nil.1 front, rfl⟩
  | cons payload payloads ih =>
      rw [List.flatMap_cons] at front
      by_cases whole : encode payload <+: bytes
      · obtain ⟨rest, rfl⟩ := whole
        rw [List.prefix_append_right_inj] at front
        obtain ⟨arrived, coming, buffer, rfl, rfl, part⟩ := ih front
        refine ⟨payload :: arrived, coming, buffer, rfl, ?_, part⟩
        rw [List.flatMap_cons, List.append_assoc]
      · obtain inFrame | frame :=
          List.prefix_or_prefix_of_prefix front (List.prefix_append (encode payload) _)
        · refine ⟨[], payload :: payloads, bytes, rfl, rfl, inFrame, ?_⟩
          refine Nat.lt_of_le_of_ne inFrame.length_le fun same => whole ?_
          exact inFrame.eq_of_length same ▸ List.prefix_refl bytes
        · exact absurd frame whole

/-! ## Chunks -/

/-- What is taken off a buffer while chunks are put at its end one by one, and what is left. -/
def drainChunks (buffer : List UInt8) : List (List UInt8) → List (Item × Nat) × List UInt8
  | [] => ([], buffer)
  | chunk :: rest =>
    let (items, left) := drain (buffer ++ chunk)
    let (more, last) := drainChunks left rest
    (items ++ more, last)

/-- While the chunks of a stream come in, exactly the frames that are whole are taken off. -/
theorem drainChunks_of_isPrefix {payloads chunks : List (List UInt8)} {buffer : List UInt8}
    (small : ∀ payload ∈ payloads, payload.length ≤ maxSize) (part : Partial buffer payloads)
    (front : buffer ++ chunks.flatten <+: payloads.flatMap encode) :
    ∃ arrived coming left, payloads = arrived ++ coming ∧
      buffer ++ chunks.flatten = arrived.flatMap encode ++ left ∧ Partial left coming ∧
      drainChunks buffer chunks = (arrived.map taken, left) := by
  induction chunks generalizing payloads buffer with
  | nil => exact ⟨[], payloads, buffer, rfl, List.append_nil buffer, part, rfl⟩
  | cons chunk chunks ih =>
      rw [List.flatten_cons, ← List.append_assoc] at front ⊢
      obtain ⟨arrived, coming, left, rfl, eq, part⟩ :=
        split_stream ((List.prefix_append _ _).trans front)
      rw [eq, List.flatMap_append, List.append_assoc, List.prefix_append_right_inj] at front
      obtain ⟨next, later, last, rfl, eq', part', rest⟩ :=
        ih (fun payload member => small payload (List.mem_append_right arrived member)) part front
      refine ⟨arrived ++ next, later, last, (List.append_assoc ..).symm, ?_, part', ?_⟩
      · rw [eq, List.append_assoc, eq', List.flatMap_append, List.append_assoc]
      · rw [drainChunks, eq, drain_stream small part]
        simp only [rest, List.map_append]

/-- When the whole stream has come in, all its frames have been taken off and nothing is left. -/
theorem drainChunks_stream {payloads chunks : List (List UInt8)}
    (small : ∀ payload ∈ payloads, payload.length ≤ maxSize)
    (cut : chunks.flatten = payloads.flatMap encode) :
    drainChunks [] chunks = (payloads.map taken, []) := by
  have whole : [] ++ chunks.flatten <+: payloads.flatMap encode :=
    cut ▸ List.prefix_refl chunks.flatten
  obtain ⟨arrived, coming, left, rfl, eq, part, drained⟩ :=
    drainChunks_of_isPrefix small (partial_nil payloads) whole
  rw [List.nil_append, cut, List.flatMap_append, List.append_cancel_left_eq] at eq
  cases coming with
  | nil =>
      obtain rfl : left = [] := part
      rw [drained, List.append_nil]
  | cons next rest =>
      -- A proper part of the next frame is too short to be all that is still to come.
      have short := part.2
      rw [← eq, List.flatMap_cons, List.length_append] at short
      omega

end Frame
end DebugBridge
