import Mathlib.Data.List.Forall2
import DebugBridge.Proofs.Script.Masking

/-!
# Masking byte by byte

A text may also be masked by walking over its bytes and putting spaces in place of some.  Such a walk
takes what a backtick escapes for a single byte, so it may come to stand inside a character.  The main
statement says that it masks the same characters all the same: no character is masked in part.
-/

namespace DebugBridge
namespace Mask

open Text

/-! ## The walk -/

/-- Whether a byte lets a semicolon after it start a comment. -/
def separatesByte (b : UInt8) : Bool :=
  b == ' '.toUInt8 || b == '\t'.toUInt8 || b == '\r'.toUInt8 || b == '\n'.toUInt8

/-- Whether a byte opens a string. -/
def isQuoteByte (version : Version) (b : UInt8) : Bool :=
  b == '\x22'.toUInt8 || (b == '\x27'.toUInt8 && version == .v2)

/-- A byte that is masked; a line break stays. -/
def hidden (b : UInt8) : UInt8 := if b == '\n'.toUInt8 then b else ' '.toUInt8

/-- Bytes of which those from `start` up to `stop` are masked. -/
def blank (bytes : List UInt8) (start stop : Nat) : List UInt8 :=
  bytes.mapIdx fun index b => if start ≤ index ∧ index < stop then hidden b else b

/-- The number of bytes up to the end of a block comment. -/
def commentSize : List UInt8 → Nat
  | [] => 0
  | b :: rest =>
    if b == '*'.toUInt8 && rest.head? == some '/'.toUInt8 then 2 else commentSize rest + 1

/-- The number of bytes up to the end of a line. -/
def lineSize (bytes : List UInt8) : Nat := (bytes.takeWhile (· != '\n'.toUInt8)).length

/-- The number of bytes up to the end of a string, and whether there is a quote that closes it. -/
def stringSize (version : Version) (quote : UInt8) : List UInt8 → Nat × Bool
  | [] => (0, false)
  | b :: rest =>
    if b == '\n'.toUInt8 then (0, false)
    else if b == '\x60'.toUInt8 && version == .v2 then
      let (size, closed) := stringSize version quote (rest.drop 1)
      (size + 2, closed)
    else if b == quote then
      if version == .v1 && rest.head? == some quote then
        let (size, closed) := stringSize version quote (rest.drop 1)
        (size + 2, closed)
      else (0, true)
    else
      let (size, closed) := stringSize version quote rest
      (size + 1, closed)
termination_by bytes => bytes.length
decreasing_by all_goals (simp only [List.length_drop, List.length_cons]; omega)

/-- One turn of the walk. -/
structure Turn where
  /-- Where the next turn begins. -/
  next : Nat
  /-- Whether only blanks were read on the line. -/
  fresh : Bool
  /-- Where masking starts. -/
  start : Nat
  /-- Where masking stops. -/
  stop : Nat

/-- The turn in code, at an index with the byte `b` that the bytes `rest` follow. -/
def turn (version : Version) (bytes : List UInt8) (index : Nat) (fresh : Bool) (b : UInt8)
    (rest : List UInt8) : Turn :=
  if b == '\n'.toUInt8 then ⟨index + 1, true, index, index⟩
  else if b == ' '.toUInt8 || b == '\t'.toUInt8 || b == '\r'.toUInt8 then
    ⟨index + 1, fresh, index, index⟩
  else if b == '/'.toUInt8 && fresh && rest.head? == some '*'.toUInt8 then
    let stop := index + 2 + commentSize (rest.drop 1)
    ⟨stop, false, index, stop⟩
  else if b == ';'.toUInt8 && (index == 0 || bytes[index - 1]?.any separatesByte) then
    let stop := index + 1 + lineSize rest
    ⟨stop, fresh, index, stop⟩
  else if b == '\x60'.toUInt8 then ⟨index + 2, false, index, index⟩
  else if isQuoteByte version b then
    let (size, closed) := stringSize version b rest
    let stop := min (index + 1 + size) bytes.length
    ⟨if closed then stop + 1 else stop, false, index + 1, stop⟩
  else ⟨index + 1, false, index, index⟩

theorem lt_next_turn (version : Version) {bytes : List UInt8} {index : Nat} (fresh : Bool)
    (b : UInt8) (rest : List UInt8) (inside : index < bytes.length) :
    index < (turn version bytes index fresh b rest).next := by
  unfold turn
  dsimp only
  repeat' split
  all_goals (dsimp only; omega)

/-- The masked form of bytes, of which those before an index are masked in `out`. -/
def walk (version : Version) (bytes : List UInt8) (index : Nat) (fresh : Bool)
    (out : List UInt8) : List UInt8 :=
  match _ : bytes.drop index with
  | [] => out
  | b :: rest =>
    let turn := turn version bytes index fresh b rest
    walk version bytes turn.next turn.fresh (blank out turn.start turn.stop)
termination_by bytes.length - index
decreasing_by
  rename_i drop
  have inside : index < bytes.length := by
    rw [← List.drop_eq_nil_iff.not.trans Nat.not_le, drop]
    exact List.cons_ne_nil _ _
  have := lt_next_turn version fresh b rest inside
  omega

/-- The masked form of bytes. -/
def maskBytes (version : Version) (bytes : List UInt8) : List UInt8 :=
  walk version bytes 0 true bytes

/-- The text of masked bytes; bytes that are no text would be replaced. -/
def maskedText (version : Version) (text : List Char) : List Char :=
  match utf8? (maskBytes version (utf8 text)) with
  | .ok masked => masked
  | .error _ => utf8Lossy (maskBytes version (utf8 text))

/-! ## Characters and their bytes -/

section Bytes

variable {b : UInt8} {bytes rest tail high : List UInt8} {c a : Char} {text : List Char}

/-- A character is one byte below 0x80, or several that are all above. -/
theorem utf8EncodeChar_cases (c : Char) :
    (c.toNat < 0x80 ∧ String.utf8EncodeChar c = [c.toUInt8]) ∨
      (0x80 ≤ c.toNat ∧ ∀ b ∈ String.utf8EncodeChar c, 0x80 ≤ b.toNat) := by
  by_cases ascii : c.toNat < 0x80
  · exact .inl ⟨ascii, utf8EncodeChar_of_le (Nat.le_of_lt_succ ascii)⟩
  · refine .inr ⟨Nat.le_of_not_lt ascii, fun b member => Nat.le_of_not_lt fun low => ascii ?_⟩
    rw [toNat_of_mem_utf8EncodeChar member low]
    exact low

theorem toNat_toUInt8 (ascii : c.toNat < 0x80) : c.toUInt8.toNat = c.toNat :=
  toNat_byte (Nat.lt_trans ascii (by decide))

/-- A byte above 0x80 is no ASCII character. -/
theorem beq_of_high (high : 0x80 ≤ b.toNat) (ascii : a.toNat < 0x80) : (b == a.toUInt8) = false := by
  refine beq_eq_false_iff_ne.2 fun same => ?_
  rw [same, toNat_toUInt8 ascii] at high
  omega

/-- The first byte of a character tells whether it is a certain ASCII character. -/
theorem head_beq (encoded : String.utf8EncodeChar c = b :: tail) (ascii : a.toNat < 0x80) :
    (b == a.toUInt8) = (c == a) := by
  rcases utf8EncodeChar_cases c with ⟨low, one⟩ | ⟨large, high⟩
  · obtain ⟨rfl, -⟩ := List.cons.inj (encoded.symm.trans one)
    rw [Bool.eq_iff_iff, beq_iff_eq, beq_iff_eq]
    refine ⟨fun same => ?_, congrArg _⟩
    have code := congrArg UInt8.toNat same
    rw [toNat_toUInt8 low, toNat_toUInt8 ascii] at code
    exact Char.ext (UInt32.toNat_inj.1 code)
  · rw [encoded] at high
    rw [beq_of_high (high b List.mem_cons_self) ascii, eq_comm, beq_eq_false_iff_ne]
    rintro rfl
    omega

/-- What follows the first byte of a character is no ASCII character. -/
theorem high_tail (encoded : String.utf8EncodeChar c = b :: tail) : ∀ b ∈ tail, 0x80 ≤ b.toNat := by
  intro other member
  refine ((isTail_iff other).1 (isTail_of_mem_tail (c := c) ?_)).1
  rw [encoded]
  exact member

theorem utf8Size_eq (encoded : String.utf8EncodeChar c = b :: tail) :
    c.utf8Size = tail.length + 1 := by
  rw [← String.length_utf8EncodeChar, encoded, List.length_cons]

theorem head?_utf8 (text : List Char) (ascii : a.toNat < 0x80) :
    ((utf8 text).head? == some a.toUInt8) = (text.head? == some a) := by
  cases text with
  | nil => rfl
  | cons c text =>
      obtain ⟨b, tail, encoded, -⟩ := utf8EncodeChar_head c
      rw [utf8_cons, encoded]
      exact head_beq encoded ascii

theorem map_hidden_utf8 (text : List Char) :
    (utf8 text).map hidden = utf8 (text.flatMap blanked) := by
  induction text with
  | nil => rfl
  | cons c text ih =>
      rw [utf8_cons, List.map_append, ih, List.flatMap_cons, utf8_append, List.append_cancel_right_eq,
        blanked]
      by_cases newline : c = '\n'
      · subst newline
        rfl
      · rw [if_neg (mt beq_iff_eq.1 newline)]
        have spaces : utf8 (List.replicate c.utf8Size ' ') =
            List.replicate c.utf8Size ' '.toUInt8 := by
          rw [utf8, List.flatMap_replicate]
          exact List.flatten_replicate_singleton
        rw [spaces, ← String.length_utf8EncodeChar, ← List.map_const']
        refine List.map_congr_left fun b member => if_neg fun same => newline ?_
        rw [beq_iff_eq] at same
        subst same
        exact Char.ext (UInt32.toNat_inj.1 (toNat_of_mem_utf8EncodeChar member (by decide)))

end Bytes

/-! ## How far comments and strings reach -/

section Sizes

variable {version : Version} {quote : Char} {part : List UInt8}

theorem commentSize_append_of_high (high : ∀ b ∈ part, 0x80 ≤ b.toNat) (rest : List UInt8) :
    commentSize (part ++ rest) = part.length + commentSize rest := by
  induction part with
  | nil => rw [List.nil_append, List.length_nil, Nat.zero_add]
  | cons b part ih =>
      rw [List.forall_mem_cons] at high
      rw [List.cons_append, commentSize, beq_of_high (a := '*') high.1 (by decide), ih high.2,
        List.length_cons]
      exact Nat.add_right_comm _ _ _

theorem stringSize_append_of_high (high : ∀ b ∈ part, 0x80 ≤ b.toNat) (ascii : quote.toNat < 0x80)
    (rest : List UInt8) :
    stringSize version quote.toUInt8 (part ++ rest) =
      (part.length + (stringSize version quote.toUInt8 rest).1,
        (stringSize version quote.toUInt8 rest).2) := by
  induction part with
  | nil => rw [List.nil_append, List.length_nil, Nat.zero_add]
  | cons b part ih =>
      rw [List.forall_mem_cons] at high
      rw [List.cons_append, stringSize, beq_of_high (a := '\n') high.1 (by decide),
        beq_of_high (a := '\x60') high.1 (by decide), beq_of_high high.1 ascii, ih high.2,
        List.length_cons]
      simp only [Bool.false_and, Bool.false_eq_true, if_false, Prod.mk.injEq, and_true]
      exact Nat.add_right_comm _ _ _

/-- The rest of a character counts for nothing. -/
theorem stringSize_drop_utf8_cons (ascii : quote.toNat < 0x80) (d : Char) (text : List Char) :
    stringSize version quote.toUInt8 ((utf8 (d :: text)).drop 1) =
      (d.utf8Size - 1 + (stringSize version quote.toUInt8 (utf8 text)).1,
        (stringSize version quote.toUInt8 (utf8 text)).2) := by
  obtain ⟨b, tail, encoded, -⟩ := utf8EncodeChar_head d
  rw [utf8_cons, encoded, List.cons_append, List.drop_one, List.tail_cons,
    stringSize_append_of_high (high_tail encoded) ascii, utf8Size_eq encoded, Nat.add_sub_cancel]

/-- Where a string of a text ends is told by its characters. -/
theorem stringSize_utf8_cons (ascii : quote.toNat < 0x80) (c : Char) (text : List Char) :
    stringSize version quote.toUInt8 (utf8 (c :: text)) =
      if c == '\n' then (0, false)
      else if c == '\x60' && version == .v2 then
        ((stringSize version quote.toUInt8 ((utf8 text).drop 1)).1 + 2,
          (stringSize version quote.toUInt8 ((utf8 text).drop 1)).2)
      else if c == quote then
        if version == .v1 && text.head? == some quote then
          ((stringSize version quote.toUInt8 ((utf8 text).drop 1)).1 + 2,
            (stringSize version quote.toUInt8 ((utf8 text).drop 1)).2)
        else (0, true)
      else
        (c.utf8Size + (stringSize version quote.toUInt8 (utf8 text)).1,
          (stringSize version quote.toUInt8 (utf8 text)).2) := by
  obtain ⟨b, tail, encoded, -⟩ := utf8EncodeChar_head c
  have single (low : c.toNat < 0x80) : tail = [] := by
    have one := utf8EncodeChar_of_le (c := c) (Nat.le_of_lt_succ low)
    rw [encoded] at one
    exact (List.cons.inj one).2
  rw [utf8_cons, encoded, List.cons_append, stringSize, head_beq encoded (by decide),
    head_beq encoded (by decide), head_beq encoded ascii]
  split
  · rfl
  split
  next escapes =>
    rw [Bool.and_eq_true, beq_iff_eq] at escapes
    rw [single (escapes.1 ▸ by decide)]
    rfl
  split
  next ends =>
    rw [single (beq_iff_eq.1 ends ▸ ascii), List.nil_append, head?_utf8 text ascii]
  next other =>
    rw [stringSize_append_of_high (high_tail encoded) ascii, utf8Size_eq encoded]
    exact congrArg (·, _) (Nat.add_right_comm _ _ _)

/-- A comment that ends with the line is masked up to the line break. -/
theorem exists_remark (version : Version) (previous : Option Char) (text : List Char) :
    ∃ part more, text = part ++ more ∧ lineSize (utf8 text) = byteLength part ∧
      ∀ fresh, maskFrom version .remark previous text =
        part.flatMap blanked ++ maskFrom version (.code fresh) (part.getLast?.or previous) more := by
  induction text generalizing previous with
  | nil => exact ⟨[], [], rfl, rfl, fun _ => rfl⟩
  | cons c text ih =>
      by_cases newline : c = '\n'
      · subst newline
        exact ⟨[], '\n' :: text, rfl, rfl, fun _ => rfl⟩
      · obtain ⟨part, more, rfl, size, masked⟩ := ih (some c)
        refine ⟨c :: part, more, rfl, ?_, fun fresh => ?_⟩
        · have inLine : ∀ b ∈ String.utf8EncodeChar c, (b != '\n'.toUInt8) = true := by
            intro b member
            rw [bne_iff_ne]
            rintro rfl
            exact newline (Char.ext (UInt32.toNat_inj.1
              (toNat_of_mem_utf8EncodeChar member (by decide))))
          rw [lineSize, utf8_cons, List.takeWhile_append_of_pos inLine, List.length_append,
            String.length_utf8EncodeChar, byteLength_cons, ← size, lineSize]
        · rw [maskFrom, step, if_neg (mt beq_iff_eq.1 newline), getLast?_cons_or,
            List.flatMap_cons, List.append_assoc, ← masked fresh]
          rfl

/-- A block comment is masked up to its end. -/
theorem exists_comment (version : Version) (previous : Option Char) (text : List Char) :
    ∃ part more, text = part ++ more ∧ commentSize (utf8 text) = byteLength part ∧
      maskFrom version .comment previous text =
        part.flatMap blanked ++ maskFrom version (.code false) (part.getLast?.or previous) more := by
  induction text generalizing previous with
  | nil => exact ⟨[], [], rfl, rfl, rfl⟩
  | cons c text ih =>
      by_cases closes : (c == '*' && text.head? == some '/') = true
      · rw [Bool.and_eq_true, beq_iff_eq, beq_iff_eq] at closes
        obtain ⟨rfl, follows⟩ := closes
        cases text with
        | nil => cases follows
        | cons d text =>
            cases follows
            exact ⟨['*', '/'], text, rfl, rfl, rfl⟩
      · obtain ⟨part, more, split, size, masked⟩ := ih (some c)
        refine ⟨c :: part, more, congrArg _ split, ?_, ?_⟩
        · rw [utf8_cons, byteLength_cons, ← size]
          rcases utf8EncodeChar_cases c with ⟨low, one⟩ | ⟨-, high⟩
          · have code : (c.toUInt8 == '*'.toUInt8) = (c == '*') := head_beq one (by decide)
            rw [one, List.singleton_append, commentSize, code, head?_utf8 text (by decide),
              if_neg closes, ← String.length_utf8EncodeChar, one]
            exact Nat.add_comm _ _
          · rw [commentSize_append_of_high high, String.length_utf8EncodeChar]
        · rw [maskFrom, step, if_neg closes, getLast?_cons_or, List.flatMap_cons,
            List.append_assoc, ← masked]
          rfl

/-- What a string is masked to, up to a quote that closes it or to the end of the line. -/
inductive StringMasked (version : Version) (quote : Char) (previous : Option Char)
    (text : List Char) : Nat × Bool → Prop
  | closed {inside more : List Char} (split : text = inside ++ quote :: more)
      (masked : maskFrom version (.quoted quote) previous text =
        inside.flatMap blanked ++ quote :: maskFrom version (.code false) (some quote) more) :
      StringMasked version quote previous text (byteLength inside, true)
  | unclosed {inside more : List Char} {size : Nat} (split : text = inside ++ more)
      (reaches : min size (byteLength text) = byteLength inside)
      (masked : ∀ fresh, maskFrom version (.quoted quote) previous text = inside.flatMap blanked ++
        maskFrom version (.code fresh) (inside.getLast?.or previous) more) :
      StringMasked version quote previous text (size, false)

/-- Something may stand before that is masked within the string. -/
theorem StringMasked.append (previous : Option Char) (front : List Char) {text : List Char}
    {found : Nat × Bool}
    (rest : StringMasked version quote (front.getLast?.or previous) text found)
    (goesOn : maskFrom version (.quoted quote) previous (front ++ text) = front.flatMap blanked ++
      maskFrom version (.quoted quote) (front.getLast?.or previous) text) :
    StringMasked version quote previous (front ++ text) (byteLength front + found.1, found.2) := by
  cases rest with
  | @closed inside more split masked =>
      rw [← byteLength_append]
      have whole : front ++ text = front ++ inside ++ quote :: more := by
        rw [split, List.append_assoc]
      refine .closed whole ?_
      rw [goesOn, masked, List.flatMap_append, List.append_assoc]
  | @unclosed inside more size split reaches masked =>
      have whole : front ++ text = front ++ inside ++ more := by
        rw [split, List.append_assoc]
      refine .unclosed whole ?_ fun fresh => ?_
      · rw [byteLength_append, byteLength_append, ← reaches]
        omega
      · rw [goesOn, masked fresh, List.flatMap_append, List.append_assoc, List.getLast?_append,
          Option.or_assoc]

/-- A character that takes the meaning from the next one, and that one. -/
theorem StringMasked.pair {previous : Option Char} {c d : Char} {text : List Char} {found : Nat × Bool}
    (one : c.utf8Size = 1) (rest : StringMasked version quote (some d) text found)
    (steps : quotedStep version quote c (some d) = (false, .skipping quote)) :
    StringMasked version quote previous (c :: d :: text) (d.utf8Size - 1 + found.1 + 2, found.2) := by
  have whole := rest.append previous [c, d] (by simp [maskFrom, step, steps])
  have size : byteLength [c, d] + found.1 = d.utf8Size - 1 + found.1 + 2 := by
    have := d.utf8Size_pos
    rw [byteLength_cons, byteLength_cons, byteLength_nil, one]
    omega
  rwa [size] at whole

theorem stringMasked (opens : isQuote version quote = true) (previous : Option Char) (text : List Char) :
    StringMasked version quote previous text (stringSize version quote.toUInt8 (utf8 text)) := by
  have ascii : quote.toNat < 0x80 := by
    rw [isQuote, Bool.or_eq_true, Bool.and_eq_true, beq_iff_eq, beq_iff_eq] at opens
    rcases opens with rfl | ⟨rfl, -⟩ <;> decide
  have one : quote.utf8Size = 1 := utf8Size_eq (utf8EncodeChar_of_le (Nat.le_of_lt_succ ascii))
  -- What a backtick escapes is one byte of the walk, so the induction is not on single characters.
  induction length : text.length using Nat.strongRecOn generalizing text previous with
  | _ bound ih =>
      subst length
      cases text with
      | nil =>
          rw [show utf8 [] = [] from rfl, stringSize]
          exact .unclosed (List.nil_append _).symm rfl fun _ => rfl
      | cons c text =>
          rw [stringSize_utf8_cons ascii]
          split
          next newline =>
            obtain rfl := beq_iff_eq.1 newline
            exact .unclosed (List.nil_append _).symm (Nat.zero_min _) fun _ => rfl
          next inLine =>
          split
          next escapes =>
            rw [Bool.and_eq_true, beq_iff_eq, beq_iff_eq] at escapes
            obtain ⟨rfl, rfl⟩ := escapes
            cases text with
            | nil =>
                rw [show utf8 [] = [] from rfl, List.drop_nil, stringSize]
                exact .unclosed (List.append_nil ['\x60']).symm rfl fun _ => rfl
            | cons d text =>
                rw [stringSize_drop_utf8_cons ascii]
                exact (ih text.length (by simp only [List.length_cons]; omega) (some d) text rfl).pair
                  rfl rfl
          next plain =>
          split
          next ends =>
            obtain rfl := beq_iff_eq.1 ends
            split
            next doubled =>
              have follows : text.head? = some c := by
                rw [Bool.and_eq_true, beq_iff_eq, beq_iff_eq] at doubled
                exact doubled.2
              obtain ⟨text, rfl⟩ := List.head?_eq_some_iff.1 follows
              rw [stringSize_drop_utf8_cons ascii]
              refine (ih text.length (by simp only [List.length_cons]; omega) (some c) text rfl).pair one ?_
              rw [quotedStep, if_neg inLine, if_neg plain, if_pos ends]
              exact if_pos doubled
            next single =>
              refine .closed (List.nil_append (c :: text)).symm ?_
              rw [maskFrom, step, quotedStep, if_neg inLine, if_neg plain, if_pos ends, if_neg single]
              rfl
          next other =>
            have rest := (ih text.length (Nat.lt_succ_self _) (some c) text rfl).append previous [c] (by
              rw [List.singleton_append, maskFrom, step, quotedStep, if_neg inLine, if_neg plain,
                if_neg other]
              simp)
            rwa [byteLength_cons, byteLength_nil, Nat.add_zero] at rest

end Sizes

/-! ## Turns -/

section Turns

variable {version : Version} {bytes rest out : List UInt8} {index : Nat} {b : UInt8}

theorem walk_of_length_le (past : bytes.length ≤ index) (fresh : Bool) :
    walk version bytes index fresh out = out := by
  rw [walk, List.drop_eq_nil_of_le past]

theorem walk_of_drop (drop : bytes.drop index = b :: rest) (fresh : Bool) :
    walk version bytes index fresh out =
      walk version bytes (turn version bytes index fresh b rest).next
        (turn version bytes index fresh b rest).fresh
        (blank out (turn version bytes index fresh b rest).start
          (turn version bytes index fresh b rest).stop) := by
  rw [walk]
  split
  · next none => cases none.symm.trans drop
  · next same =>
      cases same.symm.trans drop
      rfl

theorem blank_same (bytes : List UInt8) (place : Nat) : blank bytes place place = bytes := by
  have none : (fun (index : Nat) (b : UInt8) =>
      if place ≤ index ∧ index < place then hidden b else b) = fun _ b => b := by
    funext index b
    exact if_neg (by omega)
  rw [blank, none, List.mapIdx_eq_iff]
  intro index
  rw [Option.map_id']

/-- A stretch between others is masked. -/
theorem blank_append (before part after : List UInt8) :
    blank (before ++ (part ++ after)) before.length (before.length + part.length) =
      before ++ (part.map hidden ++ after) := by
  have unchanged (bytes : List UInt8) (place : Nat → Prop) [DecidablePred place]
      (outside : ∀ index < bytes.length, ¬ place index) :
      (bytes.mapIdx fun index b => if place index then hidden b else b) = bytes := by
    rw [List.mapIdx_eq_iff]
    intro index
    by_cases inside : index < bytes.length
    · simp [List.getElem?_eq_getElem inside, outside index inside]
    · simp [List.getElem?_eq_none (Nat.le_of_not_lt inside)]
  have masked (bytes : List UInt8) (place : Nat → Prop) [DecidablePred place]
      (within : ∀ index < bytes.length, place index) :
      (bytes.mapIdx fun index b => if place index then hidden b else b) = bytes.map hidden := by
    rw [List.mapIdx_eq_iff]
    intro index
    by_cases inside : index < bytes.length
    · simp [List.getElem?_eq_getElem inside, within index inside]
    · simp [List.getElem?_eq_none (Nat.le_of_not_lt inside)]
  rw [blank, List.mapIdx_append, List.mapIdx_append, unchanged before _ (by omega),
    masked part _ (by omega), unchanged after _ (by omega)]

/-- Inside a character the walk goes on to the next one. -/
theorem walk_of_high {part : List UInt8} (drop : bytes.drop index = part ++ rest)
    (high : ∀ b ∈ part, 0x80 ≤ b.toNat) :
    walk version bytes index false out = walk version bytes (index + part.length) false out := by
  induction part generalizing index with
  | nil => rfl
  | cons b part ih =>
      rw [List.forall_mem_cons] at high
      have apart {a : Char} (ascii : a.toNat < 0x80) := beq_of_high high.1 ascii
      have passes : turn version bytes index false b (part ++ rest) =
          ⟨index + 1, false, index, index⟩ := by
        rw [turn, isQuoteByte, apart (a := '\n') (by decide), apart (a := ' ') (by decide),
          apart (a := '\t') (by decide), apart (a := '\r') (by decide),
          apart (a := '/') (by decide), apart (a := ';') (by decide),
          apart (a := '\x60') (by decide), apart (a := '\x22') (by decide),
          apart (a := '\x27') (by decide)]
        rfl
      have next : bytes.drop (index + 1) = part ++ rest := by
        rw [← List.drop_drop, drop]
        rfl
      rw [List.cons_append] at drop
      rw [walk_of_drop drop, passes]
      dsimp only
      rw [blank_same, ih next high.2, List.length_cons, Nat.add_right_comm, Nat.add_assoc]

end Turns

/-! ## Turns in a text -/

/-- From between two characters the walk goes on to between two others, and what it puts in the place
of those in between is what they are masked to. -/
inductive Advances (version : Version) (before : List Char) (fresh : Bool) (rest : List Char) : Prop
  | intro (part more : List Char) (masked : List UInt8) (goesOn : Bool) (split : rest = part ++ more)
      (nonempty : part ≠ []) (size : masked.length = byteLength part)
      (walks : ∀ out : List UInt8, out.length = byteLength before →
        walk version (utf8 (before ++ rest)) (byteLength before) fresh (out ++ utf8 rest) =
          walk version (utf8 (before ++ rest)) (byteLength before + byteLength part) goesOn
            (out ++ (masked ++ utf8 more)))
      (masks : utf8 (maskFrom version (.code fresh) before.getLast? rest) =
        masked ++ utf8 (maskFrom version (.code goesOn) (part.getLast?.or before.getLast?) more)) :
      Advances version before fresh rest

section Advances

variable {version : Version} {before rest text : List Char} {fresh goesOn : Bool} {c : Char}
  {b : UInt8} {tail : List UInt8}

theorem drop_utf8 (before rest : List Char) :
    (utf8 (before ++ rest)).drop (byteLength before) = utf8 rest := by
  rw [utf8_append, List.drop_left' (length_utf8 before)]

theorem drop_utf8_cons (before text : List Char) (encoded : String.utf8EncodeChar c = b :: tail) :
    (utf8 (before ++ c :: text)).drop (byteLength before) = b :: (tail ++ utf8 text) := by
  rw [drop_utf8, utf8_cons, encoded, List.cons_append]

/-- A character that is kept. -/
theorem advances_kept (goesOn : Bool) (encoded : String.utf8EncodeChar c = b :: tail)
    (whole : tail = [] ∨ goesOn = false)
    (turns : turn version (utf8 (before ++ c :: text)) (byteLength before) fresh b
      (tail ++ utf8 text) = ⟨byteLength before + 1, goesOn, byteLength before, byteLength before⟩)
    (steps : codeStep version fresh before.getLast? c text.head? = (true, .code goesOn)) :
    Advances version before fresh (c :: text) := by
  refine .intro [c] text (utf8 [c]) goesOn rfl (List.cons_ne_nil _ _) (length_utf8 _)
    (fun out _ => ?_) ?_
  · have drop := drop_utf8_cons before text encoded
    have next : (utf8 (before ++ c :: text)).drop (byteLength before + 1) = tail ++ utf8 text := by
      rw [← List.drop_drop, drop]
      rfl
    rw [walk_of_drop drop, turns]
    dsimp only
    rw [blank_same, ← utf8_append, byteLength_cons, byteLength_nil, utf8Size_eq encoded]
    rcases whole with rfl | rfl
    · rfl
    · rw [walk_of_high next (high_tail encoded)]
      congr 1
      omega
  · rw [maskFrom, step, steps, ← utf8_append]
    rfl

/-- A stretch that is masked. -/
theorem advances_hidden (part more : List Char) (encoded : String.utf8EncodeChar c = b :: tail)
    (split : c :: text = part ++ more) (nonempty : part ≠ [])
    (turns : turn version (utf8 (before ++ c :: text)) (byteLength before) fresh b
      (tail ++ utf8 text) = ⟨byteLength before + byteLength part, goesOn, byteLength before,
        byteLength before + byteLength part⟩)
    (masks : maskFrom version (.code fresh) before.getLast? (c :: text) = part.flatMap blanked ++
      maskFrom version (.code goesOn) (part.getLast?.or before.getLast?) more) :
    Advances version before fresh (c :: text) := by
  refine .intro part more ((utf8 part).map hidden) goesOn split nonempty ?_
    (fun out size => ?_) ?_
  · rw [List.length_map, length_utf8]
  · rw [walk_of_drop (drop_utf8_cons before text encoded), turns]
    dsimp only
    rw [split, utf8_append part more, ← size, ← length_utf8 part, blank_append]
  · rw [masks, utf8_append, map_hidden_utf8]

/-- A backtick is kept, and so is the character that it escapes, wherever the walk comes to stand. -/
theorem advances_escape : Advances version before fresh ('\x60' :: text) := by
  have drop : (utf8 (before ++ '\x60' :: text)).drop (byteLength before) =
      '\x60'.toUInt8 :: utf8 text :=
    drop_utf8_cons before text (show String.utf8EncodeChar '\x60' = ['\x60'.toUInt8] from rfl)
  have turns : turn version (utf8 (before ++ '\x60' :: text)) (byteLength before) fresh
      '\x60'.toUInt8 (utf8 text) =
        ⟨byteLength before + 2, false, byteLength before, byteLength before⟩ := rfl
  cases text with
  | nil =>
      have total : (utf8 (before ++ ['\x60'])).length = byteLength before + 1 := by
        rw [length_utf8, byteLength_append]
        rfl
      refine .intro ['\x60'] [] (utf8 ['\x60']) false rfl (List.cons_ne_nil _ _) rfl
        (fun out _ => ?_) rfl
      have past : (utf8 (before ++ ['\x60'])).length ≤ byteLength before + byteLength ['\x60'] :=
        Nat.le_of_eq total
      rw [walk_of_drop drop, turns]
      dsimp only
      rw [blank_same, walk_of_length_le (by omega), walk_of_length_le past]
      rfl
  | cons d text =>
      obtain ⟨b, tail, encoded, -⟩ := utf8EncodeChar_head d
      have next : (utf8 (before ++ '\x60' :: d :: text)).drop (byteLength before + 2) =
          tail ++ utf8 text := by
        rw [← List.drop_drop, drop, utf8_cons, encoded]
        rfl
      have size : byteLength ['\x60', d] = 2 + tail.length := by
        rw [byteLength_cons, byteLength_cons, byteLength_nil, utf8Size_eq encoded]
        exact (Nat.add_left_comm 1 tail.length 1).trans (Nat.add_comm _ _)
      refine .intro ['\x60', d] text (utf8 ['\x60', d]) false rfl (List.cons_ne_nil _ _)
        (length_utf8 _) (fun out _ => ?_) ?_
      · rw [walk_of_drop drop, turns]
        dsimp only
        rw [blank_same, walk_of_high next (high_tail encoded), size, Nat.add_assoc, ← utf8_append]
        rfl
      · have steps (next : Option Char) :
            codeStep version fresh before.getLast? '\x60' next = (true, .escaped) := rfl
        simp only [maskFrom, step, steps, if_true, ← utf8_append]
        rfl

/-- A block comment. -/
theorem advances_comment (encoded : String.utf8EncodeChar c = [b])
    (turns : turn version (utf8 (before ++ c :: '*' :: text)) (byteLength before) fresh b
        (utf8 ('*' :: text)) =
      ⟨byteLength before + 2 + commentSize (utf8 text), false, byteLength before,
        byteLength before + 2 + commentSize (utf8 text)⟩)
    (steps : codeStep version fresh before.getLast? c (some '*') = (false, .opening)) :
    Advances version before fresh (c :: '*' :: text) := by
  obtain ⟨part, more, rfl, size, masked⟩ := exists_comment version (some '*') text
  have reaches : byteLength (c :: '*' :: part) = 2 + byteLength part := by
    rw [byteLength_cons, utf8Size_eq encoded, byteLength_cons, ← Nat.add_assoc]
    rfl
  rw [size, Nat.add_assoc, ← reaches] at turns
  refine advances_hidden (c :: '*' :: part) more encoded rfl (List.cons_ne_nil _ _) turns ?_
  rw [maskFrom, step, List.head?_cons, steps]
  dsimp only
  rw [maskFrom, step]
  dsimp only
  rw [masked, getLast?_cons_or, getLast?_cons_or, List.flatMap_cons, List.flatMap_cons,
    List.append_assoc, List.append_assoc]
  rfl

/-- A comment that ends with its line. -/
theorem advances_remark (encoded : String.utf8EncodeChar c = [b])
    (turns : turn version (utf8 (before ++ c :: text)) (byteLength before) fresh b (utf8 text) =
      ⟨byteLength before + 1 + lineSize (utf8 text), fresh, byteLength before,
        byteLength before + 1 + lineSize (utf8 text)⟩)
    (steps : codeStep version fresh before.getLast? c text.head? = (false, .remark)) :
    Advances version before fresh (c :: text) := by
  obtain ⟨part, more, rfl, size, masked⟩ := exists_remark version (some c) text
  have reaches : byteLength (c :: part) = 1 + byteLength part := by
    rw [byteLength_cons, utf8Size_eq encoded]
    rfl
  rw [size, Nat.add_assoc, ← reaches] at turns
  refine advances_hidden (c :: part) more encoded rfl (List.cons_ne_nil _ _) turns ?_
  rw [maskFrom, step, steps]
  dsimp only
  rw [masked fresh, getLast?_cons_or, List.flatMap_cons, List.append_assoc]
  rfl

/-- What is inside a string is masked, and the quote before it is not. -/
theorem blank_inside {out : List UInt8} (length : out.length = byteLength before)
    (encoded : String.utf8EncodeChar c = [b]) (inside more : List Char) :
    blank (out ++ utf8 (c :: (inside ++ more))) (byteLength before + 1)
        (byteLength before + 1 + byteLength inside) =
      out ++ (b :: ((utf8 inside).map hidden ++ utf8 more)) := by
  have opened := blank_append (out ++ [b]) (utf8 inside) (utf8 more)
  rw [List.length_append, length, length_utf8, List.append_assoc, List.append_assoc] at opened
  rw [utf8_cons, encoded, utf8_append]
  exact opened

/-- A string is masked between its quotes. -/
theorem advances_string (opens : isQuote version c = true) {stop : Nat} {closed : Bool}
    (reach : stringSize version c.toUInt8 (utf8 text) = (stop, closed))
    (encoded : String.utf8EncodeChar c = [b])
    (turns : turn version (utf8 (before ++ c :: text)) (byteLength before) fresh b (utf8 text) =
      ⟨if closed then byteLength before + 1 + min stop (byteLength text) + 1
        else byteLength before + 1 + min stop (byteLength text), false, byteLength before + 1,
        byteLength before + 1 + min stop (byteLength text)⟩)
    (steps : codeStep version fresh before.getLast? c text.head? = (true, .quoted c)) :
    Advances version before fresh (c :: text) := by
  have drop : (utf8 (before ++ c :: text)).drop (byteLength before) = b :: utf8 text :=
    drop_utf8_cons before text encoded
  have starts (more : List Char) : utf8 (c :: more) = b :: utf8 more := by
    rw [utf8_cons, encoded, List.singleton_append]
  have size (more : List Char) : byteLength (c :: more) = 1 + byteLength more := by
    rw [byteLength_cons, utf8Size_eq encoded, List.length_nil, Nat.zero_add]
  have masks : maskFrom version (.code fresh) before.getLast? (c :: text) =
      c :: maskFrom version (.quoted c) (some c) text := by
    rw [maskFrom, step, steps]
    rfl
  have found := stringMasked opens (some c) text
  rw [reach] at found
  cases found with
  | @closed inside more split masked =>
      have fits : min (byteLength inside) (byteLength text) = byteLength inside := by
        rw [split, byteLength_append]
        omega
      have length : byteLength (c :: (inside ++ [c])) = 1 + byteLength inside + 1 := by
        rw [size, byteLength_append, size, byteLength_nil, Nat.add_zero, Nat.add_assoc]
      have last : (c :: (inside ++ [c])).getLast?.or before.getLast? = some c := by
        rw [getLast?_cons_or, List.getLast?_concat, Option.some_or]
      refine .intro (c :: (inside ++ [c])) more (b :: ((utf8 inside).map hidden ++ [b])) false
        (by rw [split]; simp) (List.cons_ne_nil _ _) ?_ (fun out start => ?_) ?_
      · rw [length, List.length_cons, List.length_append, List.length_map, length_utf8,
          List.length_singleton]
        omega
      · rw [walk_of_drop drop, turns, fits, split]
        dsimp only
        rw [blank_inside start encoded, length, starts]
        simp only [if_true, List.cons_append, List.append_assoc, List.nil_append, Nat.add_assoc]
      · rw [masks, masked, last, starts, utf8_append, ← map_hidden_utf8, starts]
        simp only [List.cons_append, List.append_assoc, List.nil_append]
  | @unclosed inside more reached split reaches masked =>
      refine .intro (c :: inside) more (b :: (utf8 inside).map hidden) false (by rw [split]; rfl)
        (List.cons_ne_nil _ _) ?_ (fun out start => ?_) ?_
      · rw [size, List.length_cons, List.length_map, length_utf8, Nat.add_comm]
      · rw [walk_of_drop drop, turns, reaches, split]
        dsimp only
        rw [blank_inside start encoded, size, ← Nat.add_assoc]
        rfl
      · rw [masks, masked false, starts, utf8_append, ← map_hidden_utf8, getLast?_cons_or]
        rfl

/-- A character of several bytes is kept: none of them means anything to the walk. -/
theorem advances_wide (high : ∀ b ∈ String.utf8EncodeChar c, 0x80 ≤ b.toNat) :
    Advances version before fresh (c :: text) := by
  obtain ⟨b, tail, encoded, -⟩ := utf8EncodeChar_head c
  have highHead : 0x80 ≤ b.toNat := high b (encoded ▸ List.mem_cons_self)
  have byte {a : Char} (ascii : a.toNat < 0x80) := beq_of_high highHead ascii
  have char {a : Char} (ascii : a.toNat < 0x80) : (c == a) = false :=
    (head_beq encoded ascii).symm.trans (byte ascii)
  refine advances_kept false encoded (.inr rfl) ?_ ?_
  · rw [turn, isQuoteByte, byte (a := '\n') (by decide), byte (a := ' ') (by decide),
      byte (a := '\t') (by decide), byte (a := '\r') (by decide), byte (a := '/') (by decide),
      byte (a := ';') (by decide), byte (a := '\x60') (by decide),
      byte (a := '\x22') (by decide), byte (a := '\x27') (by decide)]
    rfl
  · rw [codeStep, isQuote, char (a := '\n') (by decide), char (a := ' ') (by decide),
      char (a := '\t') (by decide), char (a := '\r') (by decide), char (a := '/') (by decide),
      char (a := ';') (by decide), char (a := '\x60') (by decide),
      char (a := '\x22') (by decide), char (a := '\x27') (by decide)]
    rfl

/-- Only the last byte of a character can let a semicolon after it start a comment. -/
theorem separatesByte_of_getLast? {last : UInt8}
    (ends : (String.utf8EncodeChar c).getLast? = some last) : separatesByte last = separates c := by
  rcases utf8EncodeChar_cases c with ⟨-, one⟩ | ⟨large, high⟩
  · rw [one, List.getLast?_singleton, Option.some_inj] at ends
    subst ends
    rw [separatesByte, separates, head_beq one (by decide), head_beq one (by decide),
      head_beq one (by decide), head_beq one (by decide)]
  · have high := high last (List.mem_of_getLast? ends)
    have apart {a : Char} (ascii : a.toNat < 0x80) : (c == a) = false := by
      rw [beq_eq_false_iff_ne]
      rintro rfl
      omega
    rw [separatesByte, separates, beq_of_high high (by decide), beq_of_high high (by decide),
      beq_of_high high (by decide), beq_of_high high (by decide), apart (by decide),
      apart (by decide), apart (by decide), apart (by decide)]

/-- The walk looks back at one byte, the masking at one character. -/
theorem separated_utf8 (before rest : List Char) :
    (byteLength before == 0 ||
      (utf8 (before ++ rest))[byteLength before - 1]?.any separatesByte) =
        before.getLast?.all separates := by
  rcases List.eq_nil_or_concat' before with rfl | ⟨front, c, rfl⟩
  · rfl
  · obtain ⟨b, tail, encoded, -⟩ := utf8EncodeChar_head c
    have positive : byteLength (front ++ [c]) ≠ 0 := by
      rw [byteLength_append, byteLength_cons, utf8Size_eq encoded]
      omega
    obtain ⟨last, ends⟩ : ∃ last, (String.utf8EncodeChar c).getLast? = some last := by
      rw [encoded, List.getLast?_cons]
      exact ⟨_, rfl⟩
    have looked : (utf8 (front ++ [c] ++ rest))[byteLength (front ++ [c]) - 1]? = some last := by
      rw [utf8_append, ← length_utf8, List.getElem?_append_left (by rw [length_utf8]; omega),
        ← List.getLast?_eq_getElem?, utf8_append, utf8_cons, show utf8 [] = [] from rfl,
        List.append_nil, List.getLast?_append, ends, Option.some_or]
    rw [beq_eq_false_iff_ne.2 positive, looked, List.getLast?_concat, Option.any_some,
      Option.all_some, separatesByte_of_getLast? ends, Bool.false_or]

theorem advances (version : Version) (before : List Char) (fresh : Bool) (c : Char)
    (text : List Char) : Advances version before fresh (c :: text) := by
  rcases utf8EncodeChar_cases c with ⟨-, one⟩ | ⟨-, high⟩
  · -- A character of one byte: the walk and the masking decide alike.
    have turns := turn.eq_def version (utf8 (before ++ c :: text)) (byteLength before) fresh c.toUInt8
      (utf8 text)
    have steps := codeStep.eq_def version fresh before.getLast? c text.head?
    have byte {a : Char} (ascii : a.toNat < 0x80) : (c.toUInt8 == a.toUInt8) = (c == a) :=
      head_beq one ascii
    have quotes : isQuoteByte version c.toUInt8 = isQuote version c := by
      rw [isQuoteByte, isQuote, byte (by decide), byte (by decide)]
    rw [byte (by decide), byte (by decide), byte (by decide), byte (by decide), byte (by decide),
      byte (by decide), byte (by decide), head?_utf8 text (by decide), separated_utf8, quotes]
      at turns
    by_cases newline : (c == '\n') = true
    · rw [if_pos newline] at turns steps
      exact advances_kept _ one (.inl rfl) turns steps
    rw [if_neg newline] at turns steps
    by_cases blank : (c == ' ' || c == '\t' || c == '\r') = true
    · rw [if_pos blank] at turns steps
      exact advances_kept _ one (.inl rfl) turns steps
    rw [if_neg blank] at turns steps
    by_cases opens : (c == '/' && fresh && text.head? == some '*') = true
    · rw [if_pos opens] at turns steps
      rw [Bool.and_eq_true, beq_iff_eq] at opens
      obtain ⟨text, rfl⟩ := List.head?_eq_some_iff.1 opens.2
      exact advances_comment one turns steps
    rw [if_neg opens] at turns steps
    by_cases remarks : (c == ';' && before.getLast?.all separates) = true
    · rw [if_pos remarks] at turns steps
      exact advances_remark one turns steps
    rw [if_neg remarks] at turns steps
    by_cases escapes : (c == '\x60') = true
    · obtain rfl := beq_iff_eq.1 escapes
      exact advances_escape
    rw [if_neg escapes] at turns steps
    by_cases quoted : isQuote version c = true
    · rw [if_pos quoted] at turns steps
      have total : (utf8 (before ++ c :: text)).length = byteLength before + 1 + byteLength text := by
        rw [length_utf8, byteLength_append, byteLength_cons, utf8Size_eq one, ← Nat.add_assoc]
        rfl
      rcases reach : stringSize version c.toUInt8 (utf8 text) with ⟨stop, closed⟩
      rw [reach, total] at turns
      dsimp only at turns
      rw [Nat.add_min_add_left] at turns
      exact advances_string quoted reach one turns steps
    rw [if_neg quoted] at turns steps
    exact advances_kept _ one (.inl rfl) turns steps
  · exact advances_wide high

/-- From between two characters on, the walk leaves what the text from there on is masked to. -/
theorem walk_utf8 (version : Version) (before rest : List Char) (fresh : Bool) (out : List UInt8)
    (length : out.length = byteLength before) :
    walk version (utf8 (before ++ rest)) (byteLength before) fresh (out ++ utf8 rest) =
      out ++ utf8 (maskFrom version (.code fresh) before.getLast? rest) := by
  -- A turn may read several characters, so the induction is on how many are left.
  induction count : rest.length using Nat.strongRecOn generalizing before rest fresh out with
  | _ count ih =>
      subst count
      cases rest with
      | nil =>
          have ends : (utf8 (before ++ [])).length = byteLength before := by
            rw [List.append_nil, length_utf8]
          rw [walk_of_length_le (Nat.le_of_eq ends)]
          rfl
      | cons c text =>
          cases advances version before fresh c text with
          | intro part more masked goesOn split nonempty size walks masks =>
              have shorter : more.length < (c :: text).length := by
                rw [split, List.length_append]
                exact Nat.lt_add_of_pos_left (List.length_pos_iff.2 nonempty)
              have later := ih more.length shorter (before ++ part) more goesOn (out ++ masked)
                (by rw [List.length_append, byteLength_append, length, size]) rfl
              rw [walks out length, masks, ← List.append_assoc, ← List.append_assoc, ← byteLength_append,
                ← List.getLast?_append, ← later, split, List.append_assoc before]

/-- The walk masks no character in part. -/
theorem maskBytes_utf8 (version : Version) (text : List Char) :
    maskBytes version (utf8 text) = utf8 (maskSource version text) :=
  walk_utf8 version [] text true [] rfl

end Advances

/-! ## Offsets -/

/-- Whether masked bytes can stand for others: an offset means the same place in both. -/
structure InPlace (bytes masked : List UInt8) : Prop where
  length_eq : masked.length = bytes.length
  /-- At every offset the byte is the same one, or a space. -/
  kept_or_blank : ∀ {offset : Nat} {b : UInt8}, masked[offset]? = some b →
    bytes[offset]? = some b ∨ b = ' '.toUInt8
  /-- The line breaks are the same ones. -/
  breaks : ∀ offset : Nat,
    masked[offset]? = some '\n'.toUInt8 ↔ bytes[offset]? = some '\n'.toUInt8

theorem inPlace_of_forall₂ {bytes masked : List UInt8}
    (hides : List.Forall₂ (fun b other => other = b ∨ other = hidden b) bytes masked) :
    InPlace bytes masked := by
  have length : bytes.length = masked.length := hides.length_eq
  have at? {offset : Nat} (inside : offset < bytes.length) :
      masked[offset] = bytes[offset] ∨ masked[offset] = hidden bytes[offset] :=
    hides.get inside (length ▸ inside)
  have hidden_or (b : UInt8) :
      hidden b = b ∨ (b ≠ '\n'.toUInt8 ∧ hidden b = ' '.toUInt8) := by
    rw [hidden]
    split
    · exact .inl rfl
    · next inLine => exact .inr ⟨mt beq_iff_eq.2 inLine, rfl⟩
  refine ⟨length.symm, fun {offset b} found => ?_, fun offset => ?_⟩
  · obtain ⟨inside, rfl⟩ := List.getElem?_eq_some_iff.1 found
    have inside : offset < bytes.length := length ▸ inside
    rw [List.getElem?_eq_getElem inside, Option.some_inj]
    rcases at? inside with same | masked
    · exact .inl same.symm
    · exact (hidden_or bytes[offset]).imp (fun same => (masked.trans same).symm)
        fun space => masked.trans space.2
  · by_cases inside : offset < bytes.length
    · rw [List.getElem?_eq_getElem inside, List.getElem?_eq_getElem (length ▸ inside),
        Option.some_inj, Option.some_inj]
      rcases at? inside with same | masked
      · rw [same]
      · rw [masked]
        rcases hidden_or bytes[offset] with same | ⟨inLine, space⟩
        · rw [same]
        · rw [space]
          exact ⟨fun newline => absurd newline (by decide), fun newline => absurd newline inLine⟩
    · rw [List.getElem?_eq_none (Nat.le_of_not_lt inside),
        List.getElem?_eq_none (Nat.le_of_not_lt (length ▸ inside))]

theorem Masks.inPlace {text masked : List Char} (masks : Masks text masked) :
    InPlace (utf8 text) (utf8 masked) := by
  refine inPlace_of_forall₂ ?_
  induction masks with
  | nil => exact .nil
  | keep c rest ih =>
      rw [utf8_cons, utf8_cons]
      exact List.rel_append (List.forall₂_same.2 fun b _ => .inl rfl) ih
  | @blank c inLine text masked rest ih =>
      have spaces : utf8 (List.replicate c.utf8Size ' ') = (String.utf8EncodeChar c).map hidden := by
        have one := map_hidden_utf8 [c]
        rw [List.flatMap_singleton, blanked, if_neg (mt beq_iff_eq.1 inLine)] at one
        rw [← one, utf8_cons, show utf8 [] = [] from rfl, List.append_nil]
      rw [utf8_cons, utf8_append, spaces]
      refine List.rel_append ?_ ih
      rw [List.forall₂_map_right_iff, List.forall₂_same]
      exact fun b _ => .inr rfl

/-- Masking leaves every line break and every byte that it shows in its place.  Masking by bytes gives
the bytes of what masking by characters gives, so they are a text and none is ever replaced. -/
theorem maskSource_inPlace (version : Version) (text : List Char) :
    InPlace (utf8 text) (utf8 (maskSource version text)) ∧
      maskBytes version (utf8 text) = utf8 (maskSource version text) ∧
      utf8? (maskBytes version (utf8 text)) = .ok (maskSource version text) ∧
      maskedText version text = maskSource version text := by
  have same := maskBytes_utf8 version text
  have valid : utf8? (maskBytes version (utf8 text)) = .ok (maskSource version text) := by
    rw [same, utf8?_utf8]
  refine ⟨(masks_maskFrom version (.code true) none text).inPlace, same, valid, ?_⟩
  rw [maskedText, valid]

end Mask
end DebugBridge
