import DebugBridge.Proofs.Text.Utf8
import DebugBridge.Text.Percent

/-!
# Percent escapes are read back

An escape is the percent sign and two hexadecimal digits, which give the byte back.  All other bytes
stand for themselves, so as long as no percent sign is left as it is, decoding undoes encoding.  What is
written consists of such escapes and of what is kept.
-/

namespace DebugBridge
namespace Text
namespace Percent

variable {keep : Char → Bool}

/-- The byte of a hexadecimal digit gives its value. -/
theorem digit?_digit {value : Nat} (small : value < 16) :
    digit? (UInt8.ofNat (digit value).toNat) = some (UInt8.ofNat value) := by
  have all : ∀ value : Fin 16,
      digit? (UInt8.ofNat (digit value).toNat) = some (UInt8.ofNat value) := by decide
  exact all ⟨value, small⟩

theorem digit_le {value : Nat} (small : value < 16) : (digit value).toNat ≤ 0x7F := by
  have all : ∀ value : Fin 16, (digit value).toNat ≤ 0x7F := by decide
  exact all ⟨value, small⟩

/-- The two digits of a byte make up the byte. -/
theorem byte_of_digits (b : UInt8) :
    UInt8.ofNat (b.toNat / 16) * 16 + UInt8.ofNat (b.toNat % 16) = b := by
  have small := b.toNat_lt
  rw [← UInt8.toNat_inj, UInt8.toNat_add, UInt8.toNat_mul, toNat_byte (by omega),
    toNat_byte (by omega)]
  simp only [UInt8.reduceToNat]
  omega

/-- The character of a byte below 0x80 is that byte. -/
theorem utf8_ofNat {b : UInt8} (ascii : b.toNat < 128) : utf8 [Char.ofNat b.toNat] = [b] := by
  have code : (Char.ofNat b.toNat).toNat = b.toNat := by
    rw [Char.ofNat, dif_pos (.inl (by omega))]
    rfl
  rw [utf8_of_le (by simp only [List.mem_singleton, forall_eq, code]; omega), List.map_singleton,
    code, UInt8.ofNat_toNat]

theorem decode_cons_of_ne {b : UInt8} (other : b ≠ 37) (rest : List UInt8) :
    decode (b :: rest) = b :: decode rest := by
  match rest with
  | [] | [_] => rfl
  | _ :: _ :: _ => rw [decode, if_neg (mt beq_iff_eq.1 other)]

/-- The escape of a byte is read as the byte. -/
theorem decode_escape (b : UInt8) (rest : List UInt8) :
    decode (utf8 (escape b) ++ rest) = b :: decode rest := by
  have small := b.toNat_lt
  have high : b.toNat / 16 < 16 := by omega
  have low : b.toNat % 16 < 16 := by omega
  have ascii : ∀ c ∈ escape b, c.toNat ≤ 0x7F := by
    simp only [escape, List.forall_mem_cons]
    exact ⟨by decide, digit_le high, digit_le low, List.forall_mem_nil _⟩
  have bytes : utf8 (escape b) ++ rest =
      37 :: UInt8.ofNat (digit (b.toNat / 16)).toNat ::
        UInt8.ofNat (digit (b.toNat % 16)).toNat :: rest := by
    rw [utf8_of_le ascii]
    rfl
  rw [bytes, decode, if_pos (beq_self_eq_true 37), digit?_digit high, digit?_digit low]
  exact congrArg (· :: decode rest) (byte_of_digits b)

/-- What is escaped is read back, and what follows is read on. -/
theorem decode_encode (escapes : keep '%' = false) (text : List Char) (rest : List UInt8) :
    decode (utf8 (encode keep text) ++ rest) = utf8 text ++ decode rest := by
  have bytes (whole : List UInt8) :
      decode (utf8 (whole.flatMap fun b =>
        if b < 128 && keep (Char.ofNat b.toNat) then [Char.ofNat b.toNat] else escape b) ++ rest) =
          whole ++ decode rest := by
    induction whole with
    | nil => rfl
    | cons b whole ih =>
        rw [List.flatMap_cons, utf8_append, List.append_assoc]
        split
        · next plain =>
          rw [Bool.and_eq_true, decide_eq_true_iff, UInt8.lt_iff_toNat_lt] at plain
          have one : utf8 [Char.ofNat b.toNat] = [b] := utf8_ofNat plain.1
          have other : b ≠ 37 := by
            rintro rfl
            cases escapes.symm.trans plain.2
          rw [one, List.singleton_append, decode_cons_of_ne other, ih, List.cons_append]
        · rw [decode_escape, ih, List.cons_append]
  exact bytes (utf8 text)

/-! ## What is written -/

/-- The capital hexadecimal digits. -/
def capitalDigits : List Char := "0123456789ABCDEF".toList

/-- A text of characters that satisfy a predicate and of escapes. -/
inductive Escaped (plain : Char → Prop) : List Char → Prop
  /-- Nothing. -/
  | nil : Escaped plain []
  /-- A character that satisfies the predicate. -/
  | plain {c : Char} {text : List Char} (isPlain : plain c) (more : Escaped plain text) :
      Escaped plain (c :: text)
  /-- A percent sign and two digits. -/
  | escape {high low : Char} {text : List Char} (first : high ∈ capitalDigits)
      (second : low ∈ capitalDigits) (more : Escaped plain text) :
      Escaped plain ('%' :: high :: low :: text)

theorem digit_mem {value : Nat} (small : value < 16) : digit value ∈ capitalDigits := by
  have all : ∀ value : Fin 16, digit value ∈ capitalDigits := by decide
  exact all ⟨value, small⟩

/-- Encoding leaves what is kept, and escapes. -/
theorem escaped_encode (keep : Char → Bool) (text : List Char) :
    Escaped (fun c => keep c = true) (encode keep text) := by
  rw [encode]
  induction utf8 text with
  | nil => exact .nil
  | cons b bytes ih =>
      rw [List.flatMap_cons]
      split
      · next plain =>
        rw [Bool.and_eq_true] at plain
        exact .plain plain.2 ih
      · have small := b.toNat_lt
        apply Escaped.escape
        · exact digit_mem (by omega)
        · exact digit_mem (by omega)
        · exact ih

theorem Escaped.mono {plain wider : Char → Prop} {text : List Char} (escaped : Escaped plain text)
    (implies : ∀ c, plain c → wider c) : Escaped wider text := by
  induction escaped with
  | nil => exact .nil
  | plain isPlain _ ih => exact .plain (implies _ isPlain) ih
  | escape first second _ ih => exact .escape first second ih

end Percent
end Text
end DebugBridge
