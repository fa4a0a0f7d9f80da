import DebugBridge.Proofs.Script.Displacement
import Mathlib.Order.Monotone.Basic

/-!
# Carriage returns before line breaks

When a carriage return is put before every line break of a text, masking goes on as before, but that
the new characters become blanks where the line ends in a comment or in a string.  So the bytes of the
text, and of the masked text, are the old ones with one byte put before each line break.
-/

namespace DebugBridge

namespace Text

/-- A text with a carriage return before each line break. -/
def withReturns (text : List Char) : List Char :=
  text.flatMap fun c => if c = '\n' then ['\r', '\n'] else [c]

theorem withReturns_newline (text : List Char) :
    withReturns ('\n' :: text) = '\r' :: '\n' :: withReturns text := rfl

theorem withReturns_cons {c : Char} (other : c ≠ '\n') (text : List Char) :
    withReturns (c :: text) = c :: withReturns text := by
  rw [withReturns, List.flatMap_cons, if_neg other]
  rfl

/-- Bytes with a carriage return or a blank put before each line break. -/
inductive Returned : List UInt8 → List UInt8 → Prop
  | nil : Returned [] []
  | keep {b : UInt8} {bytes bytes' : List UInt8} (other : b ≠ 10) (rest : Returned bytes bytes') :
      Returned (b :: bytes) (b :: bytes')
  | newline {b : UInt8} {bytes bytes' : List UInt8} (put : b = 13 ∨ b = 32)
      (rest : Returned bytes bytes') : Returned (10 :: bytes) (b :: 10 :: bytes')

/-- Where the byte at an offset goes when a byte is put before each line break; a line break itself goes
after the byte that is put before it. -/
def carry (bytes : List UInt8) : Nat → Nat
  | 0 => 0
  | index + 1 => carry bytes index + if bytes[index]? = some 10 then 2 else 1

section Carry

variable {bytes bytes' others : List UInt8}

theorem carry_cons (b : UInt8) (bytes : List UInt8) (index : Nat) :
    carry (b :: bytes) (index + 1) = (if b = 10 then 2 else 1) + carry bytes index := by
  induction index with
  | zero => simp [carry]
  | succ index ih => rw [carry, ih, carry, List.getElem?_cons_succ, Nat.add_assoc]

theorem carry_congr (same : ∀ index : Nat, bytes[index]? = some 10 ↔ others[index]? = some 10)
    (index : Nat) : carry bytes index = carry others index := by
  induction index with
  | zero => rfl
  | succ index ih => simp only [carry, ih, same]

theorem carry_succ_of_ne {index : Nat} (other : bytes[index]? ≠ some 10) :
    carry bytes (index + 1) = carry bytes index + 1 := by
  rw [carry, if_neg other]

theorem carry_succ_of_newline {index : Nat} (newline : bytes[index]? = some 10) :
    carry bytes (index + 1) = carry bytes index + 2 := by
  rw [carry, if_pos newline]

theorem carry_strictMono (bytes : List UInt8) : StrictMono (carry bytes) := by
  refine strictMono_nat_of_lt_succ fun index => ?_
  rw [carry]
  split <;> omega

/-- Within a line every byte goes equally far. -/
theorem carry_add {start count : Nat}
    (inLine : ∀ index, start ≤ index → index < start + count → bytes[index]? ≠ some 10) :
    carry bytes (start + count) = carry bytes start + count := by
  induction count with
  | zero => rfl
  | succ count ih =>
      rw [← Nat.add_assoc, carry_succ_of_ne (inLine _ (Nat.le_add_right _ _) (by omega)),
        ih fun index lower upper => inLine index lower (by omega), Nat.add_assoc]

theorem Returned.append {part : List UInt8} (plain : ∀ b ∈ part, b ≠ 10)
    (returned : Returned bytes bytes') : Returned (part ++ bytes) (part ++ bytes') := by
  induction part with
  | nil => exact returned
  | cons b part ih =>
      rw [List.forall_mem_cons] at plain
      exact .keep plain.1 (ih plain.2)

theorem Returned.length_eq (returned : Returned bytes bytes') :
    bytes'.length = carry bytes bytes.length := by
  induction returned with
  | nil => rfl
  | keep other rest ih =>
      rw [List.length_cons, List.length_cons, carry_cons, if_neg other, ih, Nat.add_comm]
  | newline put rest ih =>
      rw [List.length_cons, List.length_cons, List.length_cons, carry_cons, if_pos rfl, ih]
      omega

/-- A byte that is no line break is at the place where it goes. -/
theorem Returned.getElem?_eq (returned : Returned bytes bytes') {index : Nat}
    (other : bytes[index]? ≠ some 10) : bytes'[carry bytes index]? = bytes[index]? := by
  induction returned generalizing index with
  | nil => rfl
  | keep distinct rest ih =>
      cases index with
      | zero => rfl
      | succ index =>
          rw [List.getElem?_cons_succ] at other ⊢
          rw [carry_cons, if_neg distinct, Nat.add_comm, List.getElem?_cons_succ, ih other]
  | newline put rest ih =>
      cases index with
      | zero => exact absurd rfl other
      | succ index =>
          rw [List.getElem?_cons_succ] at other ⊢
          rw [carry_cons, if_pos rfl, Nat.add_comm, List.getElem?_cons_succ, List.getElem?_cons_succ,
            ih other]

/-- A line break comes after the byte that is put before it. -/
theorem Returned.getElem?_newline (returned : Returned bytes bytes') {index : Nat}
    (newline : bytes[index]? = some 10) :
    (∃ b, (b = 13 ∨ b = 32) ∧ bytes'[carry bytes index]? = some b) ∧
      bytes'[carry bytes index + 1]? = some 10 := by
  induction returned generalizing index with
  | nil => cases newline
  | keep distinct rest ih =>
      cases index with
      | zero => exact absurd (Option.some.inj newline) distinct
      | succ index =>
          rw [carry_cons, if_neg distinct, Nat.add_comm 1, List.getElem?_cons_succ,
            List.getElem?_cons_succ]
          exact ih newline
  | @newline b _ _ put rest ih =>
      cases index with
      | zero => exact ⟨⟨b, put, rfl⟩, rfl⟩
      | succ index =>
          rw [carry_cons, if_pos rfl, Nat.add_comm 2, List.getElem?_cons_succ, List.getElem?_cons_succ,
            show carry _ index + 1 + 1 + 1 = (carry _ index + 1) + 1 + 1 from rfl,
            List.getElem?_cons_succ, List.getElem?_cons_succ]
          exact ih newline

/-- A stretch within a line stays as it is. -/
theorem Returned.take_drop_eq (returned : Returned bytes bytes') {start count : Nat}
    (inLine : ∀ index, start ≤ index → index < start + count → bytes[index]? ≠ some 10) :
    (bytes'.drop (carry bytes start)).take count = (bytes.drop start).take count := by
  refine List.ext_getElem? fun index => ?_
  rw [List.getElem?_take, List.getElem?_take]
  split
  next inside =>
    have moved : carry bytes (start + index) = carry bytes start + index :=
      carry_add fun place lower upper => inLine place lower (by omega)
    rw [List.getElem?_drop, List.getElem?_drop, ← moved]
    exact returned.getElem?_eq (inLine _ (Nat.le_add_right _ _) (by omega))
  next => rfl

open Source in
/-- The lines start where their starts go. -/
theorem Returned.breaksFrom_eq (returned : Returned bytes bytes') (first other : Nat) :
    breaksFrom other bytes' =
      (breaksFrom first bytes).map fun start => other + carry bytes (start - first) := by
  -- An offset among later lines is one behind the byte that is taken off.
  have behind {b : UInt8} {bytes : List UInt8} {first start : Nat}
      (member : start ∈ breaksFrom (first + 1) bytes) :
      carry (b :: bytes) (start - first) =
        (if b = 10 then 2 else 1) + carry bytes (start - (first + 1)) := by
    obtain ⟨place, -, rfl⟩ := mem_breaksFrom.1 member
    rw [show first + 1 + place + 1 - first = (first + 1 + place + 1 - (first + 1)) + 1 by omega,
      carry_cons]
  induction returned generalizing first other with
  | nil => rfl
  | @keep b bytes bytes' distinct rest ih =>
      rw [breaksFrom, breaksFrom, if_neg (by simpa using distinct), if_neg (by simpa using distinct),
        ih (first + 1) (other + 1)]
      refine List.map_congr_left fun start member => ?_
      rw [behind member, if_neg distinct, Nat.add_assoc]
  | @newline b bytes bytes' put rest ih =>
      have apart : ¬ (b == 10) = true := by rcases put with rfl | rfl <;> decide
      rw [breaksFrom, breaksFrom, breaksFrom, if_neg apart, if_pos (by decide), if_pos (by decide),
        ih (first + 1) (other + 1 + 1), List.map_cons]
      refine List.cons_eq_cons.2 ⟨?_, List.map_congr_left fun start member => ?_⟩
      · rw [Nat.add_sub_cancel_left, carry_cons, if_pos rfl]
        rfl
      · rw [behind member, if_pos rfl]
        omega

end Carry

theorem newline_not_mem_utf8 {part : List Char} (inLine : '\n' ∉ part) : ∀ b ∈ utf8 part, b ≠ 10 := by
  rintro b member rfl
  exact inLine (mem_of_mem_utf8 (c := '\n') (by decide) member)

theorem returned_utf8 (text : List Char) : Returned (utf8 text) (utf8 (withReturns text)) := by
  induction text with
  | nil => exact .nil
  | cons c text ih =>
      by_cases newline : c = '\n'
      · subst newline
        exact .newline (.inl rfl) ih
      · have inLine : '\n' ∉ [c] := by simpa using Ne.symm newline
        have parts := ih.append (newline_not_mem_utf8 inLine)
        rw [← utf8_append, ← utf8_append] at parts
        rw [withReturns_cons newline]
        exact parts

end Text

/-! ## Masking -/

namespace Mask

open Text

variable {version : Version} {mode : Mode} {before : Option Char} {text : List Char}

/-- Within a line, it makes no difference whether the line ends in a carriage return. -/
theorem step_return {c : Char} (newline : c ≠ '\n') (isReturn : c ≠ '\r') :
    step version mode before c (some '\r') = step version mode before c (some '\n') := by
  cases mode with
  | escaped | remark | opening | closing | skipping => rfl
  | code fresh => simp [step, codeStep]
  | comment => simp [step]
  | quoted quote =>
      rw [step, step, quotedStep, quotedStep]
      by_cases closes : c = quote
      · subst closes
        simp [newline.symm, isReturn.symm]
      · simp [closes]

theorem step_head {c : Char} (newline : c ≠ '\n') (isReturn : c ≠ '\r') (text : List Char) :
    step version mode before c (withReturns text).head? = step version mode before c text.head? := by
  cases text with
  | nil => rfl
  | cons d text =>
      by_cases ends : d = '\n'
      · subst ends
        exact step_return newline isReturn
      · rw [withReturns_cons ends]
        rfl

/-- At the end of a line that no backtick escapes, a carriage return leaves the mode as good as it was. -/
theorem step_return_newline (version : Version)
    (ends : (∃ fresh, mode = .code fresh) ∨ mode = .remark ∨ mode = .comment ∨
      ∃ quote, mode = .quoted quote) (before : Option Char) :
    step version (step version mode before '\r' (some '\n')).2 none '\n' none =
      step version mode none '\n' none := by
  rcases ends with ⟨fresh, rfl⟩ | rfl | rfl | ⟨quote, rfl⟩
  · rfl
  · rfl
  · rfl
  · rw [step, quotedStep]
    by_cases opened : '\r' = quote
    · subst opened
      cases version <;> rfl
    · simp [opened, step, quotedStep]

/-- A line break is never masked. -/
theorem maskFrom_break (version : Version) (mode : Mode) (before : Option Char) (rest : List Char) :
    maskFrom version mode before ('\n' :: rest) =
      '\n' :: maskFrom version (step version mode none '\n' none).2 (some '\n') rest := by
  rw [maskFrom, step_newline]
  dsimp only [blanked]
  split <;> rfl

/-- The masked forms of a text and of the text with carriage returns. -/
theorem returned_maskFrom (sound : mode.Sound) (plain : '\r' ∉ text)
    (joined : ¬ ['\x60', '\n'] <:+: text)
    (ends : text.head? = some '\n' → (∃ fresh, mode = .code fresh) ∨ mode = .remark ∨
      mode = .comment ∨ ∃ quote, mode = .quoted quote) :
    Returned (utf8 (maskFrom version mode before text))
      (utf8 (maskFrom version mode before (withReturns text))) := by
  induction text generalizing mode before with
  | nil => exact .nil
  | cons c text ih =>
      rw [List.mem_cons, not_or] at plain
      have inner : ¬ ['\x60', '\n'] <:+: text :=
        fun inside => joined (inside.trans (List.suffix_cons _ _).isInfix)
      by_cases newline : c = '\n'
      · subst newline
        have same := step_return_newline version (ends rfl) before
        rw [withReturns_newline, maskFrom_break, maskFrom, List.head?_cons]
        dsimp only
        rw [maskFrom_break, same]
        have rest : Returned (utf8 (maskFrom version (step version mode none '\n' none).2 (some '\n') text))
            (utf8 (maskFrom version (step version mode none '\n' none).2 (some '\n')
              (withReturns text))) := by
          refine ih (sound.step _ _ _) plain.2 inner fun _ => ?_
          rcases ends rfl with ⟨fresh, rfl⟩ | rfl | rfl | ⟨quote, rfl⟩
          · exact .inl ⟨true, rfl⟩
          · exact .inl ⟨true, rfl⟩
          · exact .inr (.inr (.inl rfl))
          · exact .inl ⟨true, rfl⟩
        split
        · exact .newline (.inl rfl) rest
        · exact .newline (.inr rfl) rest
      · have next : step version mode before c (withReturns text).head? =
            step version mode before c text.head? := step_head newline (Ne.symm plain.1) text
        rw [withReturns_cons newline, maskFrom, maskFrom, next]
        dsimp only
        rw [utf8_append, utf8_append]
        refine (ih (sound.step _ _ _) plain.2 inner fun head => ?_).append ?_
        · rw [head]
          refine step_before_newline sound ?_
          rintro rfl
          obtain ⟨rest, rfl⟩ := List.head?_eq_some_iff.1 head
          exact joined (List.prefix_append _ rest).isInfix
        · split
          · exact newline_not_mem_utf8 (by simpa using Ne.symm newline)
          · rw [blanked, if_neg (mt beq_iff_eq.1 newline)]
            exact newline_not_mem_utf8 (by simp)

/-- Only what a text holds and blanks are in its masked form. -/
theorem Masks.mem {text masked : List Char} (masks : Masks text masked) {c : Char} (member : c ∈ masked) :
    c ∈ text ∨ c = ' ' := by
  induction masks with
  | nil => cases member
  | keep d rest ih =>
      rcases List.mem_cons.1 member with rfl | later
      · exact .inl List.mem_cons_self
      · exact (ih later).imp_left (List.mem_cons_of_mem _)
  | blank inLine rest ih =>
      rcases List.mem_append.1 member with blank | later
      · exact .inr (List.eq_of_mem_replicate blank)
      · exact (ih later).imp_left (List.mem_cons_of_mem _)

end Mask
end DebugBridge
