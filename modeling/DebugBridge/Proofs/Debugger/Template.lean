import DebugBridge.Debugger.LogMessage
import DebugBridge.Proofs.Text.Trim
import Mathlib.Data.List.Chain

/-!
# Messages of logpoints are read by rules

What stands between two braces of a message is an expression if the braces within are balanced; an
escaped brace, and one that is never closed, is text like all other characters.  Reading a message
follows these rules to its end, and so gives back the segments that a message was made from.
-/

namespace DebugBridge
namespace LogMessage

/-! ## Balanced braces -/

/-- Nowhere in a text have more braces been closed than opened, and at its end as many. -/
structure Balanced (text : List Char) : Prop where
  /-- Nowhere more are closed. -/
  never : ∀ front, front <+: text → front.count '\x7d' ≤ front.count '\x7b'
  /-- In the end as many are closed. -/
  settled : text.count '\x7d' = text.count '\x7b'

/-- So many braces being open before a text, nowhere in it have more been closed, and at its end
all. -/
structure Closes (depth : Nat) (text : List Char) : Prop where
  /-- Nowhere more are closed. -/
  never : ∀ front, front <+: text → front.count '\x7d' ≤ depth + front.count '\x7b'
  /-- In the end all are closed. -/
  all : text.count '\x7d' = depth + text.count '\x7b'

theorem closes_zero_iff {text : List Char} : Closes 0 text ↔ Balanced text := by
  constructor
  · intro ⟨never, all⟩
    simp only [Nat.zero_add] at never all
    exact ⟨never, all⟩
  · intro ⟨never, settled⟩
    exact ⟨by simpa only [Nat.zero_add] using never, by simpa only [Nat.zero_add] using settled⟩

section Closes

variable {depth : Nat} {c : Char} {text inside after : List Char}

theorem closes_nil_iff : Closes depth [] ↔ depth = 0 := by
  constructor
  · intro ⟨_, all⟩
    simpa using all.symm
  · rintro rfl
    exact ⟨by simp, rfl⟩

/-- A character changes the number of open braces, and the rest of the text closes what is open
behind it. -/
theorem closes_cons_iff {next : Nat}
    (level : ∀ front : List Char, (c :: front).count '\x7d' + (next + front.count '\x7b') =
      front.count '\x7d' + (depth + (c :: front).count '\x7b')) :
    Closes depth (c :: text) ↔ Closes next text := by
  constructor
  · intro ⟨never, all⟩
    refine ⟨fun front here => ?_, ?_⟩
    · have below := never (c :: front) ((List.prefix_cons_inj c).2 here)
      have same := level front
      omega
    · have same := level text
      omega
  · intro ⟨never, all⟩
    refine ⟨fun front here => ?_, ?_⟩
    · rcases List.prefix_cons_iff.1 here with rfl | ⟨front, rfl, within⟩
      · exact Nat.zero_le _
      · have below := never front within
        have same := level front
        omega
    · have same := level text
      omega

theorem closes_opening_iff : Closes depth ('\x7b' :: text) ↔ Closes (depth + 1) text := by
  apply closes_cons_iff
  intro front
  rw [List.count_cons_self, List.count_cons_of_ne (by decide)]
  omega

theorem closes_closing_iff : Closes (depth + 1) ('\x7d' :: text) ↔ Closes depth text := by
  apply closes_cons_iff
  intro front
  rw [List.count_cons_self, List.count_cons_of_ne (by decide)]
  omega

/-- A closing brace closes one that is open. -/
theorem not_closes_zero : ¬ Closes 0 ('\x7d' :: text) := by
  intro ⟨never, _⟩
  have below := never ['\x7d'] ⟨text, rfl⟩
  exact absurd below (by decide)

theorem isBrace_eq_false_iff : isBrace c = false ↔ c ≠ '\x7b' ∧ c ≠ '\x7d' := by
  rw [isBrace, Bool.or_eq_false_iff, beq_eq_false_iff_ne, beq_eq_false_iff_ne]

theorem brace_cases (c : Char) : c = '\x7b' ∨ c = '\x7d' ∨ isBrace c = false := by
  rw [isBrace_eq_false_iff]
  tauto

theorem closes_plain_iff (plain : isBrace c = false) :
    Closes depth (c :: text) ↔ Closes depth text := by
  obtain ⟨notOpening, notClosing⟩ := isBrace_eq_false_iff.1 plain
  apply closes_cons_iff
  intro front
  rw [List.count_cons_of_ne notOpening, List.count_cons_of_ne notClosing]

/-- Characters other than braces at either end do not matter. -/
theorem Closes.trim {before : List Char} (plainBefore : ∀ c ∈ before, isBrace c = false)
    (plainAfter : ∀ c ∈ after, isBrace c = false)
    (closes : Closes depth (before ++ (text ++ after))) :
    Closes depth text := by
  induction before with
  | nil =>
      have none {brace : Char} (isBrace : isBrace brace = true) : after.count brace = 0 := by
        rw [List.count_eq_zero]
        intro member
        rw [plainAfter brace member] at isBrace
        cases isBrace
      rw [List.nil_append] at closes
      obtain ⟨never, all⟩ := closes
      refine ⟨fun front here => never front (here.trans (List.prefix_append text after)), ?_⟩
      rwa [List.count_append, List.count_append, none rfl, none rfl] at all
  | cons c before ih =>
      rw [List.cons_append, closes_plain_iff (plainBefore c List.mem_cons_self)] at closes
      exact ih (fun d member => plainBefore d (List.mem_cons_of_mem c member)) closes

/-! ## The closing brace -/

theorem closing_opening (rest : List Char) :
    closing depth ('\x7b' :: rest) =
      (closing (depth + 1) rest).map fun (inside, after) => ('\x7b' :: inside, after) := rfl

theorem closing_closing_succ (rest : List Char) :
    closing (depth + 1) ('\x7d' :: rest) =
      (closing depth rest).map fun (inside, after) => ('\x7d' :: inside, after) := rfl

theorem closing_closing_zero (rest : List Char) :
    closing 0 ('\x7d' :: rest) = some ([], rest) := rfl

theorem closing_plain (plain : isBrace c = false) (rest : List Char) :
    closing depth (c :: rest) =
      (closing depth rest).map fun (inside, after) => (c :: inside, after) := by
  obtain ⟨notOpening, notClosing⟩ := isBrace_eq_false_iff.1 plain
  rw [closing.eq_def]
  simp only [beq_iff_eq, notOpening, notClosing, if_false]

/-- The brace found is the first that has balanced braces before it. -/
theorem closing_eq_some_iff :
    closing depth text = some (inside, after) ↔
      text = inside ++ '\x7d' :: after ∧ Closes depth inside := by
  constructor
  · intro found
    induction text generalizing depth inside with
    | nil => cases found
    | cons c text ih =>
        have deeper {next : Nat}
            (level : ∀ inside, Closes depth (c :: inside) ↔ Closes next inside)
            (found : ((closing next text).map fun (inside, after) => (c :: inside, after)) =
              some (inside, after)) :
            c :: text = inside ++ '\x7d' :: after ∧ Closes depth inside := by
          obtain ⟨⟨within, behind⟩, inner, same⟩ := Option.map_eq_some_iff.1 found
          cases same
          obtain ⟨split, closes⟩ := ih inner
          exact ⟨congrArg (c :: ·) split, (level within).2 closes⟩
        rcases brace_cases c with rfl | rfl | plain
        · exact deeper (fun _ => closes_opening_iff) found
        · cases depth with
          | zero =>
              cases found
              exact ⟨rfl, closes_nil_iff.2 rfl⟩
          | succ depth => exact deeper (fun _ => closes_closing_iff) found
        · rw [closing_plain plain] at found
          exact deeper (fun _ => closes_plain_iff plain) found
  · rintro ⟨rfl, closes⟩
    induction inside generalizing depth with
    | nil =>
        cases closes_nil_iff.1 closes
        rfl
    | cons c inside ih =>
        rw [List.cons_append]
        rcases brace_cases c with rfl | rfl | plain
        · rw [closing_opening, ih (closes_opening_iff.1 closes)]
          rfl
        · cases depth with
          | zero => exact absurd closes not_closes_zero
          | succ depth =>
              rw [closing_closing_succ, ih (closes_closing_iff.1 closes)]
              rfl
        · rw [closing_plain plain, ih ((closes_plain_iff plain).1 closes)]
          rfl

theorem balanced_iff :
    Balanced text ↔ closing 0 (text ++ ['\x7d']) = some (text, []) := by
  rw [closing_eq_some_iff, closes_zero_iff]
  exact (and_iff_right rfl).symm

instance : Decidable (Balanced text) := decidable_of_iff _ balanced_iff.symm

end Closes

/-! ## The counter of open braces -/

/-- The search for the closing brace by a counter of open braces: what follows the brace that
brings the counter to zero, if one does.  Nothing is found out where the counter would go below
zero. -/
def track : Nat → List Char → Option (Option (List Char))
  | _, [] => some none
  | depth, c :: rest =>
      if c = '\x7b' then track (depth + 1) rest
      else if c = '\x7d' then
        match depth with
        | 0 => none
        | 1 => some (some rest)
        | depth + 2 => track (depth + 1) rest
      else track depth rest

theorem track_plain {c : Char} (plain : isBrace c = false) (depth : Nat) (rest : List Char) :
    track depth (c :: rest) = track depth rest := by
  obtain ⟨notOpening, notClosing⟩ := isBrace_eq_false_iff.1 plain
  rw [track.eq_def]
  simp only [notOpening, notClosing, if_false]

/-- Behind a brace that is open the counter does not go below zero. -/
theorem track_succ (depth : Nat) (text : List Char) :
    track (depth + 1) text = some ((closing depth text).map Prod.snd) := by
  induction text generalizing depth with
  | nil => rfl
  | cons c rest ih =>
      rcases brace_cases c with rfl | rfl | plain
      · rw [closing_opening, Option.map_map]
        exact ih (depth + 1)
      · cases depth with
        | zero => rfl
        | succ depth =>
            rw [closing_closing_succ, Option.map_map]
            exact ih depth
      · rw [track_plain plain, closing_plain plain, Option.map_map]
        exact ih depth

/-- The search that begins at an opening brace finds what it closes with. -/
theorem track_opening (rest : List Char) :
    track 0 ('\x7b' :: rest) = some ((closing 0 rest).map Prod.snd) :=
  track_succ 0 rest

/-! ## The rules of reading -/

/-- The rest of a message is read as some segments, `collected` being the text before it,
reversed. -/
inductive Reads : List Char → List Char → List LogSegment → Prop
  /-- The message is over. -/
  | done {collected : List Char} : Reads collected [] (flush collected)
  /-- A brace behind a backslash is text. -/
  | escape {collected after : List Char} {brace : Char} {segments : List LogSegment}
      (isBrace : isBrace brace = true) (next : Reads (brace :: collected) after segments) :
      Reads collected ('\\' :: brace :: after) segments
  /-- What stands between two braces is an expression if the braces within are balanced. -/
  | expression {collected inside after : List Char} {segments : List LogSegment}
      (balanced : Balanced inside) (next : Reads [] after segments) :
      Reads collected ('\x7b' :: (inside ++ '\x7d' :: after))
        (flush collected ++ expressionSegment inside ++ segments)
  /-- A brace that is never closed is text. -/
  | unclosed {collected rest : List Char} {segments : List LogSegment}
      (never : ∀ inside after, rest = inside ++ '\x7d' :: after → ¬ Balanced inside)
      (next : Reads ('\x7b' :: collected) rest segments) :
      Reads collected ('\x7b' :: rest) segments
  /-- All other characters are text. -/
  | plain {collected rest : List Char} {c : Char} {segments : List LogSegment}
      (notOpening : c ≠ '\x7b')
      (alone : c = '\\' → ∀ brace ∈ rest.head?, isBrace brace = false)
      (next : Reads (c :: collected) rest segments) :
      Reads collected (c :: rest) segments

section Steps

variable {collected inside after rest : List Char} {c brace : Char}

theorem segmentsFrom_nil : segmentsFrom collected [] = flush collected := by
  rw [segmentsFrom.eq_def]

theorem segmentsFrom_escape (isBrace : isBrace brace = true) :
    segmentsFrom collected ('\\' :: brace :: after) = segmentsFrom (brace :: collected) after := by
  rw [segmentsFrom.eq_def]
  simp only [beq_self_eq_true, isBrace, if_true]

theorem segmentsFrom_expression (balanced : Balanced inside) :
    segmentsFrom collected ('\x7b' :: (inside ++ '\x7d' :: after)) =
      flush collected ++ expressionSegment inside ++ segmentsFrom [] after := by
  have found := closing_eq_some_iff.2
    ⟨rfl (a := inside ++ '\x7d' :: after), closes_zero_iff.2 balanced⟩
  rw [segmentsFrom.eq_def]
  simp only [Char.reduceBEq, Bool.false_eq_true, if_false, if_true]
  split
  next within behind here =>
      rw [found] at here
      cases here
      rfl
  next missing =>
      rw [found] at missing
      cases missing

theorem segmentsFrom_unclosed
    (never : ∀ inside after, rest = inside ++ '\x7d' :: after → ¬ Balanced inside) :
    segmentsFrom collected ('\x7b' :: rest) = segmentsFrom ('\x7b' :: collected) rest := by
  have missing : closing 0 rest = none := by
    rw [Option.eq_none_iff_forall_ne_some]
    rintro ⟨inside, after⟩ found
    obtain ⟨split, closes⟩ := closing_eq_some_iff.1 found
    exact never inside after split (closes_zero_iff.1 closes)
  rw [segmentsFrom.eq_def]
  simp only [Char.reduceBEq, Bool.false_eq_true, if_false, if_true]
  split
  next inside after here =>
      rw [missing] at here
      cases here
  next => rfl

theorem segmentsFrom_plain (notOpening : c ≠ '\x7b')
    (alone : c = '\\' → ∀ brace ∈ rest.head?, isBrace brace = false) :
    segmentsFrom collected (c :: rest) = segmentsFrom (c :: collected) rest := by
  rw [segmentsFrom.eq_def]
  by_cases backslash : c = '\\'
  · subst backslash
    cases rest with
    | nil => rfl
    | cons d rest =>
        simp only [beq_self_eq_true, alone rfl d rfl, Bool.false_eq_true, if_false, if_true]
  · simp only [beq_iff_eq, backslash, notOpening, if_false]

end Steps

/-- Reading by the rules ends, in one way only. -/
theorem reads_iff {collected message : List Char} {segments : List LogSegment} :
    Reads collected message segments ↔ segments = segmentsFrom collected message := by
  constructor
  · intro reads
    induction reads with
    | done => exact segmentsFrom_nil.symm
    | escape isBrace _ ih => rw [segmentsFrom_escape isBrace, ih]
    | expression balanced _ ih => rw [segmentsFrom_expression balanced, ih]
    | unclosed never _ ih => rw [segmentsFrom_unclosed never, ih]
    | plain notOpening alone _ ih => rw [segmentsFrom_plain notOpening alone, ih]
  · rintro rfl
    fun_induction segmentsFrom collected message with
    | case1 => exact .done
    | case2 collected c backslash brace after isBrace ih =>
        cases beq_iff_eq.1 backslash
        exact .escape isBrace ih
    | case3 collected c backslash d after plain ih =>
        cases beq_iff_eq.1 backslash
        refine .plain (by decide) (fun _ brace first => ?_) ih
        cases first
        exact Bool.eq_false_iff.2 plain
    | case4 collected c backslash ih =>
        cases beq_iff_eq.1 backslash
        exact .plain (by decide) (fun _ brace first => nomatch first) ih
    | case5 collected c rest notBackslash opening inside after found shorter ih =>
        cases beq_iff_eq.1 opening
        obtain ⟨rfl, closes⟩ := closing_eq_some_iff.1 found
        exact .expression (closes_zero_iff.1 closes) ih
    | case6 collected c rest notBackslash opening missing ih =>
        cases beq_iff_eq.1 opening
        refine .unclosed (fun inside after split balanced => ?_) ih
        rw [closing_eq_some_iff.2 ⟨split, closes_zero_iff.2 balanced⟩] at missing
        cases missing
    | case7 collected c rest notBackslash notOpening ih =>
        refine .plain (mt beq_iff_eq.2 notOpening) (fun backslash => ?_) ih
        exact absurd (beq_iff_eq.2 backslash) notBackslash

/-! ## What reading gives -/

/-- A segment as reading gives it. -/
def Sound : LogSegment → Prop
  | .text content => content ≠ ""
  | .expression source => source ≠ "" ∧ Text.Trimmed source.toList ∧ Balanced source.toList

instance : DecidablePred Sound
  | .text _ => inferInstanceAs (Decidable (_ ≠ _))
  | .expression _ => inferInstanceAs (Decidable (_ ≠ _ ∧ _ ∧ _))

theorem ofList_ne_empty {text : List Char} (some : ¬ text.isEmpty = true) :
    String.ofList text ≠ "" := by
  rwa [Ne, ← String.toList_eq_nil_iff, String.toList_ofList, ← List.isEmpty_iff]

theorem sound_flush {collected : List Char} : ∀ segment ∈ flush collected, Sound segment := by
  intro segment member
  rw [flush] at member
  split at member
  next => cases member
  next some =>
      cases List.mem_singleton.1 member
      exact ofList_ne_empty (by rwa [List.isEmpty_reverse])

theorem isBrace_eq_false_of_isBlank {c : Char} (blank : Text.isBlank c = true) :
    isBrace c = false := by
  rw [isBrace_eq_false_iff]
  constructor <;> (rintro rfl; revert blank; decide)

/-- Blanks around an expression leave its braces balanced. -/
theorem Balanced.trim {inside : List Char} (balanced : Balanced inside) :
    Balanced (Text.trim inside) := by
  obtain ⟨before, after, split, blankBefore, blankAfter⟩ := Text.exists_trim inside
  rw [← closes_zero_iff] at balanced ⊢
  rw [split] at balanced
  exact balanced.trim (fun c member => isBrace_eq_false_of_isBlank (blankBefore c member))
    fun c member => isBrace_eq_false_of_isBlank (blankAfter c member)

theorem sound_expressionSegment {inside : List Char} (balanced : Balanced inside) :
    ∀ segment ∈ expressionSegment inside, Sound segment := by
  intro segment member
  rw [expressionSegment] at member
  split at member
  next => cases member
  next some =>
      cases List.mem_singleton.1 member
      rw [Sound, String.toList_ofList]
      exact ⟨ofList_ne_empty some, Text.trimmed_trim inside, balanced.trim⟩

theorem Reads.sound {collected message : List Char} {segments : List LogSegment}
    (reads : Reads collected message segments) : ∀ segment ∈ segments, Sound segment := by
  induction reads with
  | done => exact sound_flush
  | escape _ _ ih => exact ih
  | expression balanced _ ih =>
      intro segment member
      obtain member | member := List.mem_append.1 member
      · exact (List.mem_append.1 member).elim (sound_flush segment)
          (sound_expressionSegment balanced segment)
      · exact ih segment member
  | unclosed _ _ ih => exact ih
  | plain _ _ _ ih => exact ih

/-! ## Messages made from segments -/

/-- Whether a segment may stand before another in a list of segments as reading gives it. -/
def MayPrecede : LogSegment → LogSegment → Prop
  | .text _, .text _ => False
  | .text content, .expression _ => content.toList.getLast? ≠ some '\\'
  | .expression _, _ => True

instance : DecidableRel MayPrecede
  | .text _, .text _ => .isFalse id
  | .text _, .expression _ => inferInstanceAs (Decidable (_ ≠ _))
  | .expression _, _ => .isTrue trivial

/-- Segments that a message can be made from. -/
structure WellFormed (segments : List LogSegment) : Prop where
  /-- Each can be read. -/
  sound : ∀ segment ∈ segments, Sound segment
  /-- No text stands before another, and none that ends with a backslash before an expression. -/
  chain : segments.IsChain MayPrecede

theorem wellFormed_iff {segments : List LogSegment} : WellFormed segments ↔
    (∀ segment ∈ segments, Sound segment) ∧ segments.IsChain MayPrecede :=
  ⟨fun ⟨sound, chain⟩ => ⟨sound, chain⟩, fun ⟨sound, chain⟩ => ⟨sound, chain⟩⟩

instance : DecidablePred WellFormed := fun _ => decidable_of_iff _ wellFormed_iff.symm

theorem escaped_cons (c : Char) (text : List Char) :
    escaped (c :: text) = (if isBrace c then ['\\', c] else [c]) ++ escaped text := rfl

theorem escaped_plain {text rest : List Char}
    (alone : text = [] → ∀ brace ∈ rest.head?, isBrace brace = false) :
    ∀ brace ∈ (escaped text ++ rest).head?, isBrace brace = false := by
  cases text with
  | nil => exact alone rfl
  | cons c text =>
      intro brace first
      rw [escaped_cons] at first
      split at first
      next => cases first; rfl
      next plain => cases first; exact Bool.eq_false_iff.2 plain

/-- Escaped text is read as the text, unless a backslash at its end stands before a brace. -/
theorem reads_escaped {content collected rest : List Char} {segments : List LogSegment}
    (alone : content.getLast? = some '\\' → ∀ brace ∈ rest.head?, isBrace brace = false)
    (next : Reads (content.reverse ++ collected) rest segments) :
    Reads collected (escaped content ++ rest) segments := by
  induction content generalizing collected with
  | nil => exact next
  | cons c content ih =>
      rw [List.reverse_cons, List.append_assoc] at next
      have later : Reads (c :: collected) (escaped content ++ rest) segments := by
        refine ih (fun last => alone ?_) next
        rw [List.getLast?_cons, last]
        rfl
      rw [escaped_cons, List.append_assoc]
      split
      next brace => exact .escape brace later
      next plain =>
          rw [Bool.not_eq_true, isBrace_eq_false_iff] at plain
          refine .plain plain.1 (fun backslash => escaped_plain fun none => alone ?_) later
          rw [none, backslash]
          rfl

theorem flush_text {content : String} (some : content ≠ "") :
    flush content.toList.reverse = [.text content] := by
  rw [flush, if_neg, List.reverse_reverse, String.ofList_toList]
  rwa [List.isEmpty_reverse, List.isEmpty_iff, String.toList_eq_nil_iff]

theorem expressionSegment_sound {source : String} (sound : Sound (.expression source)) :
    expressionSegment source.toList = [.expression source] := by
  obtain ⟨some, trimmed, -⟩ := sound
  rw [expressionSegment, trimmed.trim_eq, if_neg, String.ofList_toList]
  rwa [List.isEmpty_iff, String.toList_eq_nil_iff]

theorem wellFormed_cons_iff {segment : LogSegment} {segments : List LogSegment} :
    WellFormed (segment :: segments) ↔
      Sound segment ∧ (∀ next ∈ segments.head?, MayPrecede segment next) ∧
        WellFormed segments := by
  rw [wellFormed_iff, wellFormed_iff, List.forall_mem_cons, List.isChain_cons]
  constructor
  · intro ⟨⟨first, rest⟩, precedes, chain⟩
    exact ⟨first, precedes, rest, chain⟩
  · intro ⟨first, precedes, rest, chain⟩
    exact ⟨⟨first, rest⟩, precedes, chain⟩

/-- A message made from segments is read as these, with the text before it as one more. -/
theorem reads_render {segments : List LogSegment} {collected : List Char}
    (wellFormed : WellFormed segments)
    (apart : collected = [] ∨ ∀ content, segments.head? ≠ some (.text content)) :
    Reads collected (segments.flatMap renderSegment) (flush collected ++ segments) := by
  induction segments generalizing collected with
  | nil =>
      rw [List.append_nil]
      exact .done
  | cons segment segments ih =>
      obtain ⟨sound, precedes, rest⟩ := wellFormed_cons_iff.1 wellFormed
      rw [List.flatMap_cons]
      cases segment with
      | text content =>
          obtain rfl := apart.resolve_right fun other => other content rfl
          have later : Reads content.toList.reverse (segments.flatMap renderSegment)
              (flush content.toList.reverse ++ segments) :=
            ih rest (.inr fun other first => precedes (.text other) first)
          rw [flush_text sound] at later
          refine reads_escaped (fun backslash brace first => ?_) (by rwa [List.append_nil])
          cases segments with
          | nil => cases first
          | cons segment segments =>
              cases segment with
              | text other => exact (precedes (.text other) rfl).elim
              | expression source => exact absurd backslash (precedes (.expression source) rfl)
      | expression source =>
          have later : Reads collected
              ('\x7b' :: (source.toList ++ '\x7d' :: segments.flatMap renderSegment))
              (flush collected ++ expressionSegment source.toList ++ (flush [] ++ segments)) :=
            .expression sound.2.2 (ih rest (.inl rfl))
          rw [expressionSegment_sound sound, List.append_assoc] at later
          rwa [renderSegment, List.cons_append, List.cons_append, List.append_assoc]

/-- Reading a message made from segments gives them back.  Of each message the rules give one
reading; every text in it is there, every expression too, without blanks around it and with balanced
braces, and the search for a closing brace, from any brace that opens, does not take the counter of
open braces below zero. -/
theorem parse_faithful :
    (∀ segments, WellFormed segments → parse (render segments) = segments) ∧
      ∀ message : String,
        (∀ segments, Reads [] message.toList segments ↔ segments = parse message) ∧
        (∀ segment ∈ parse message, Sound segment) ∧
        ∀ before rest, message.toList = before ++ '\x7b' :: rest →
          track 0 ('\x7b' :: rest) = some ((closing 0 rest).map Prod.snd) := by
  refine ⟨fun segments wellFormed => ?_, fun message => ⟨fun segments => reads_iff, ?_, ?_⟩⟩
  · rw [parse, render, String.toList_ofList]
    exact (reads_iff.1 (reads_render wellFormed (.inl rfl))).symm
  · exact (reads_iff.2 rfl).sound
  · exact fun _ rest _ => track_opening rest

/-- Text with a brace and a backslash before one, an expression with braces of its own, another
beside it, and a backslash at the end. -/
theorem parse_faithful_nested :
    let segments : List LogSegment :=
      [.text "é\\\x7b \x7d", .expression "a\x7bb\x7d", .expression "c", .text "\\"]
    WellFormed segments ∧
      render segments = "é\\\\\x7b \\\x7d\x7ba\x7bb\x7d\x7d\x7bc\x7d\\" ∧
      parse (render segments) = segments ∧
      track 0 "\x7bc\x7d\\".toList = some (some ['\\']) := by
  intro segments
  have wellFormed : WellFormed segments := by decide
  have rendered : render segments = "é\\\\\x7b \\\x7d\x7ba\x7bb\x7d\x7d\x7bc\x7d\\" := by decide
  refine ⟨wellFormed, rendered, parse_faithful.1 segments wellFormed, ?_⟩
  exact (parse_faithful.2 (render segments)).2.2 "é\\\\\x7b \\\x7d\x7ba\x7bb\x7d\x7d".toList
    "c\x7d\\".toList (by rw [rendered]; rfl)

end LogMessage
end DebugBridge
