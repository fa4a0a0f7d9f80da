import DebugBridge.Proofs.Protocol.Frame
import Mathlib.Algebra.BigOperators.Group.List.Basic
import Mathlib.Data.Nat.Digits.Defs

/-!
# What decoding leaves

Whatever is in a buffer, decoding takes off at least one byte and no more than there are, or it asks
for more.  It asks for more of two kinds of bytes only: the digits of a length, and a whole header
with no more than the bytes that it announces.  So taking off whatever can be taken off comes to an
end after every chunk, no byte is lost or counted twice, and what is left has a bound.
-/

namespace DebugBridge
namespace Frame

/-! ## One turn -/

/-- The number that a row of digits stands for. -/
def numeral (header : List UInt8) : Nat :=
  Nat.ofDigits 10 (header.reverse.map fun b => b.toNat - 48)

/-- A header announces the number that it stands for. -/
theorem foldl_eq_numeral (header : List UInt8) :
    header.foldl (fun value b => value * 10 + (b.toNat - 48)) 0 = numeral header := by
  rw [numeral, Nat.ofDigits_eq_foldr, List.foldr_map, List.foldr_reverse]
  refine congrArg (fun step => List.foldl step 0 header) ?_
  funext value b
  rw [Nat.cast_id, Nat.mul_comm, Nat.add_comm]

/-- A header is a row of digits, neither empty nor too long, for a number that is not too large. -/
theorem length?_eq_some_iff {header : List UInt8} {length : Nat} :
    length? header = some length ↔ header ≠ [] ∧ header.length ≤ maxDigits ∧
      (∀ b ∈ header, isDigit b = true) ∧ numeral header = length ∧ length ≤ maxSize := by
  rw [length?, foldl_eq_numeral, Option.ite_none_right_eq_some, Option.ite_none_right_eq_some,
    Option.some_inj, Bool.and_eq_true, Bool.and_eq_true, Bool.not_eq_true',
    List.isEmpty_eq_false_iff, decide_eq_true_eq, List.all_eq_true]
  constructor
  · rintro ⟨⟨⟨nonempty, few⟩, digits⟩, small, rfl⟩
    exact ⟨nonempty, few, digits, rfl, small⟩
  · rintro ⟨nonempty, few, digits, rfl, small⟩
    exact ⟨⟨⟨nonempty, few⟩, digits⟩, small, rfl⟩

theorem item?_eq_none_iff {decoded : Decoded} : decoded.item? = none ↔ decoded = .incomplete := by
  cases decoded <;> simp [Decoded.item?]

/-- What more bytes are needed for: a length, or the payload that a header has announced. -/
inductive Waiting : List UInt8 → Prop
  /-- Digits, at most as many as a length may have. -/
  | length {digits : List UInt8} (few : digits.length ≤ maxDigits)
      (digit : ∀ b ∈ digits, isDigit b = true) : Waiting digits
  /-- A header, its zero byte, and no more bytes than it announces. -/
  | payload {header body : List UInt8} (nonempty : header ≠ []) (few : header.length ≤ maxDigits)
      (digit : ∀ b ∈ header, isDigit b = true) (small : numeral header ≤ maxSize)
      (short : body.length ≤ numeral header) : Waiting (header ++ 0 :: body)

/-- What waits is no longer than the largest payload with the longest header and its zero byte. -/
theorem Waiting.length_le {rest : List UInt8} (waiting : Waiting rest) : rest.length ≤ maxSize + 11 := by
  cases waiting with
  | length few digit => exact Nat.le_trans few (by decide)
  | payload nonempty few digit small short =>
      rw [maxDigits] at few
      rw [List.length_append, List.length_cons]
      omega

section Turn

variable {buffer : List UInt8} {item : Item} {consumed : Nat}

/-- A payload of which a byte or the zero byte at its end has not arrived waits for more. -/
theorem decodeBody_eq_incomplete_iff {start length : Nat} {body : List UInt8} :
    decodeBody start length body = .incomplete ↔ body.length ≤ length := by
  rw [← List.drop_eq_nil_iff, decodeBody]
  cases body.drop length with
  | nil => simp
  | cons b after =>
      simp only [reduceCtorEq, iff_false]
      split
      · simp
      · split <;> simp

/-- A payload is taken off with its header and the zero bytes around it. -/
theorem item?_decodeBody {start length : Nat} {body : List UInt8}
    (taken : (decodeBody start length body).item? = some (item, consumed)) :
    consumed = start + length + 1 ∧ length < body.length := by
  have whole : length < body.length := by
    by_contra short
    rw [decodeBody_eq_incomplete_iff.2 (Nat.le_of_not_lt short)] at taken
    cases taken
  refine ⟨?_, whole⟩
  rw [decodeBody] at taken
  split at taken
  · cases taken
  · split at taken
    · cases taken
      rfl
    · split at taken <;> · cases taken; rfl

/-- A buffer without a zero byte, or one that is cut at its first zero byte. -/
theorem exists_cut (buffer : List UInt8) :
    (∀ b ∈ buffer, (b != 0) = true) ∨
      ∃ header body, buffer = header ++ 0 :: body ∧ ∀ b ∈ header, (b != 0) = true := by
  by_cases zero : 0 ∈ buffer
  · obtain ⟨header, body, rfl, before⟩ := List.eq_append_cons_of_mem zero
    exact .inr ⟨header, body, rfl, fun b member => bne_iff_ne.2 fun same => before (same ▸ member)⟩
  · exact .inl fun b member => bne_iff_ne.2 fun same => zero (same ▸ member)

/-- What is taken off is at least one byte, and it is there. -/
theorem consumed_bounds (taken : (decode buffer).item? = some (item, consumed)) :
    0 < consumed ∧ consumed ≤ buffer.length := by
  obtain nonzero | ⟨header, body, rfl, nonzero⟩ := exists_cut buffer
  · rw [decode_unfinished nonzero] at taken
    split at taken
    · next refused =>
        cases taken
        refine ⟨List.length_pos_of_ne_nil ?_, Nat.le_refl _⟩
        rintro rfl
        cases refused
    · cases taken
  · rw [decode_cut nonzero] at taken
    rw [List.length_append, List.length_cons]
    split at taken
    · cases taken
      omega
    · obtain ⟨rfl, whole⟩ := item?_decodeBody taken
      omega

/-- Decoding asks for more exactly where a length or a payload is not yet there. -/
theorem decode_eq_incomplete_iff : decode buffer = .incomplete ↔ Waiting buffer := by
  constructor
  · intro incomplete
    obtain nonzero | ⟨header, body, rfl, nonzero⟩ := exists_cut buffer
    · rw [decode_unfinished nonzero] at incomplete
      split at incomplete
      · cases incomplete
      · next accepted =>
          simp only [Bool.or_eq_true, decide_eq_true_eq, List.any_eq_true, Bool.not_eq_true',
            not_or, not_exists, not_and, Bool.not_eq_false] at accepted
          exact .length (Nat.le_of_not_gt accepted.1) accepted.2
    · rw [decode_cut nonzero] at incomplete
      split at incomplete
      · cases incomplete
      · next announced =>
          obtain ⟨nonempty, few, digit, rfl, small⟩ := length?_eq_some_iff.1 announced
          exact .payload nonempty few digit small (decodeBody_eq_incomplete_iff.1 incomplete)
  · rintro (⟨few, digit⟩ | ⟨nonempty, few, digit, small, short⟩)
    · have nonzero : ∀ b ∈ buffer, (b != 0) = true := fun b member =>
        bne_iff_ne.2 (ne_zero_of_isDigit (digit b member))
      rw [decode_unfinished nonzero, if_neg]
      simpa [few] using digit
    · next header body =>
        have nonzero : ∀ b ∈ header, (b != 0) = true := fun b member =>
          bne_iff_ne.2 (ne_zero_of_isDigit (digit b member))
        rw [decode_cut nonzero, length?_eq_some_iff.2 ⟨nonempty, few, digit, rfl, small⟩]
        exact decodeBody_eq_incomplete_iff.2 short

end Turn

/-! ## Until nothing can be taken off -/

/-- Turn by turn something is taken off a buffer, until decoding asks for more. -/
inductive Draining : List UInt8 → List (Item × Nat) → List UInt8 → Prop
  | stop {buffer : List UInt8} (incomplete : decode buffer = .incomplete) :
      Draining buffer [] buffer
  | take {buffer left : List UInt8} {item : Item} {consumed : Nat} {items : List (Item × Nat)}
      (taken : (decode buffer).item? = some (item, consumed))
      (rest : Draining (buffer.drop consumed) items left) :
      Draining buffer ((item, consumed) :: items) left

/-- After each chunk everything is taken off the buffer that can be. -/
inductive Reading : List UInt8 → List (List UInt8) → List (Item × Nat) → List UInt8 → Prop
  | done {buffer : List UInt8} : Reading buffer [] [] buffer
  | chunk {buffer chunk middle left : List UInt8} {chunks : List (List UInt8)}
      {items more : List (Item × Nat)} (drained : Draining (buffer ++ chunk) items middle)
      (rest : Reading middle chunks more left) : Reading buffer (chunk :: chunks) (items ++ more) left

variable {buffer left : List UInt8} {items : List (Item × Nat)} {chunks : List (List UInt8)}

/-- The number of bytes that some items took. -/
def size (items : List (Item × Nat)) : Nat := (items.map Prod.snd).sum

theorem size_append (items more : List (Item × Nat)) :
    size (items ++ more) = size items + size more := by
  rw [size, size, size, List.map_append, List.sum_append]

/-- The turns come to an end. -/
theorem draining_drain (buffer : List UInt8) : Draining buffer (drain buffer).1 (drain buffer).2 := by
  induction size : buffer.length using Nat.strong_induction_on generalizing buffer with
  | _ bound ih =>
      subst size
      cases taken : (decode buffer).item? with
      | none =>
          have incomplete := item?_eq_none_iff.1 taken
          rw [drain_of_incomplete incomplete]
          exact .stop incomplete
      | some entry =>
          obtain ⟨item, consumed⟩ := entry
          obtain ⟨positive, fits⟩ := consumed_bounds taken
          have nonempty : buffer ≠ [] := List.length_pos_iff.1 (Nat.lt_of_lt_of_le positive fits)
          have drained : drain buffer = ((item, consumed) :: (drain (buffer.drop consumed)).1,
              (drain (buffer.drop consumed)).2) := by
            rw [drain, dif_neg nonempty]
            split
            · next none => cases none.symm.trans taken
            · next same =>
                cases same.symm.trans taken
                rfl
          rw [drained]
          refine .take taken (ih _ ?_ _ rfl)
          rw [List.length_drop]
          omega

/-- Each turn is determined by the buffer, and so are all of them. -/
theorem Draining.eq_drain (draining : Draining buffer items left) : drain buffer = (items, left) := by
  have determined : ∀ {items' left'}, Draining buffer items' left' →
      (items', left') = (items, left) := by
    induction draining with
    | stop incomplete =>
        intro items' left' other
        cases other with
        | stop => rfl
        | take taken _ =>
            rw [incomplete] at taken
            cases taken
    | take taken _ ih =>
        intro items' left' other
        cases other with
        | stop incomplete =>
            rw [incomplete] at taken
            cases taken
        | take taken' rest =>
            cases taken'.symm.trans taken
            cases ih rest
            rfl
  exact determined (draining_drain buffer)

theorem Draining.waiting (draining : Draining buffer items left) : Waiting left := by
  induction draining with
  | stop incomplete => exact decode_eq_incomplete_iff.1 incomplete
  | take _ _ ih => exact ih

theorem Draining.pos (draining : Draining buffer items left) : ∀ entry ∈ items, 0 < entry.2 := by
  induction draining with
  | stop => exact List.forall_mem_nil _
  | take taken _ ih => exact List.forall_mem_cons.2 ⟨(consumed_bounds taken).1, ih⟩

/-- After any number of turns what was taken off and what is still there make up the buffer. -/
theorem Draining.split {front back : List (Item × Nat)}
    (draining : Draining buffer (front ++ back) left) :
    Draining (buffer.drop (size front)) back left ∧ size front ≤ buffer.length := by
  induction front generalizing buffer with
  | nil => exact ⟨draining, Nat.zero_le _⟩
  | cons entry front ih =>
      cases draining with
      | @take _ _ item consumed _ taken rest =>
          obtain ⟨drained, fits⟩ := ih rest
          have bounds := consumed_bounds taken
          rw [List.drop_drop] at drained
          rw [List.length_drop] at fits
          have whole : size ((item, consumed) :: front) = consumed + size front := rfl
          rw [whole]
          exact ⟨drained, by omega⟩

theorem Draining.left_eq (draining : Draining buffer items left) :
    left = buffer.drop (size items) ∧ size items ≤ buffer.length := by
  rw [← List.append_nil items] at draining
  obtain ⟨stopped, fits⟩ := draining.split
  cases stopped
  exact ⟨rfl, fits⟩

/-- There are no more turns than bytes. -/
theorem Draining.length_le (draining : Draining buffer items left) :
    items.length ≤ buffer.length := by
  have counted : ∀ items : List (Item × Nat), (∀ entry ∈ items, 0 < entry.2) →
      items.length ≤ size items := by
    intro items positive
    have count : (items.map Prod.snd).length = items.length := List.length_map _
    rw [size, ← count]
    refine List.length_le_sum_of_one_le _ fun n member => ?_
    obtain ⟨entry, listed, rfl⟩ := List.mem_map.1 member
    exact positive entry listed
  exact Nat.le_trans (counted items draining.pos) draining.left_eq.2

/-! ## While chunks arrive -/

theorem reading_drainChunks (buffer : List UInt8) (chunks : List (List UInt8)) :
    Reading buffer chunks (drainChunks buffer chunks).1 (drainChunks buffer chunks).2 := by
  induction chunks generalizing buffer with
  | nil => exact .done
  | cons chunk chunks ih => exact .chunk (draining_drain _) (ih _)

theorem Reading.eq_drainChunks (reading : Reading buffer chunks items left) :
    drainChunks buffer chunks = (items, left) := by
  induction reading with
  | done => rfl
  | chunk drained _ ih => rw [drainChunks, drained.eq_drain]; simp only [ih]

/-- What waits in the beginning or after a chunk. -/
theorem Reading.waiting (reading : Reading buffer chunks items left) (waiting : Waiting buffer) :
    Waiting left := by
  induction reading with
  | done => exact waiting
  | chunk drained _ ih => exact ih drained.waiting

theorem Reading.pos (reading : Reading buffer chunks items left) :
    ∀ entry ∈ items, 0 < entry.2 := by
  induction reading with
  | done => exact List.forall_mem_nil _
  | chunk drained _ ih => exact List.forall_mem_append.2 ⟨drained.pos, ih⟩

/-- What is left is the end of what has arrived, and the rest was taken off. -/
theorem Reading.left_eq (reading : Reading buffer chunks items left) :
    left = (buffer ++ chunks.flatten).drop (size items) ∧
      size items + left.length = (buffer ++ chunks.flatten).length := by
  have placed : left = (buffer ++ chunks.flatten).drop (size items) ∧
      size items ≤ (buffer ++ chunks.flatten).length := by
    induction reading with
    | @done buffer => exact ⟨by simp [size], Nat.zero_le _⟩
    | @chunk items middle more left chunks buffer chunk drained _ ih =>
        obtain ⟨rfl, fits⟩ := drained.left_eq
        obtain ⟨last, fitsToo⟩ := ih
        rw [← List.drop_append_of_le_length fits, List.drop_drop] at last
        rw [List.length_append, List.length_drop] at fitsToo
        rw [List.flatten_cons, ← List.append_assoc, size_append, List.length_append]
        exact ⟨last, by omega⟩
  refine ⟨placed.1, ?_⟩
  rw [placed.1, List.length_drop]
  exact Nat.add_sub_of_le placed.2

end Frame
end DebugBridge
