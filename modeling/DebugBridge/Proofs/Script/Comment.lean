import DebugBridge.Proofs.Script.Masking

/-!
# Comment lines

The masker reads a text from left to right, so what it makes of a part depends on what comes before
and on the next character only.  At the start of a line outside of comments it is in fresh code,
unless a backtick ends the line before; from there it turns a comment on lines of its own into
blanks and is in fresh code again after it.
-/

namespace DebugBridge
namespace Mask

open Text

variable {version : Version} {mode : Mode} {before next : Option Char} {text rest : List Char}

theorem modeAfter_append (text rest : List Char) : modeAfter version mode before next (text ++ rest) =
    modeAfter version (modeAfter version mode before (rest.head?.or next) text)
      (text.getLast?.or before) next rest := by
  induction text generalizing mode before with
  | nil => simp [modeAfter]
  | cons c text ih =>
      rw [List.cons_append, modeAfter, modeAfter, getLast?_cons_or, List.head?_append, Option.or_assoc,
        ih]

theorem maskPart_append (text rest : List Char) : maskPart version mode before next (text ++ rest) =
    maskPart version mode before (rest.head?.or next) text ++
      maskPart version (modeAfter version mode before (rest.head?.or next) text)
        (text.getLast?.or before) next rest := by
  induction text generalizing mode before with
  | nil => simp [maskPart, modeAfter]
  | cons c text ih =>
      rw [List.cons_append, maskPart, maskPart, modeAfter, getLast?_cons_or, List.head?_append,
        Option.or_assoc, ih, List.append_assoc]

/-- What a line break does depends on the mode alone. -/
theorem step_newline (version : Version) (mode : Mode) (before next : Option Char) :
    step version mode before '\n' next = step version mode none '\n' none := by
  cases mode <;> simp [step, codeStep, quotedStep]

/-- At the start of a line masking goes on as at the start of the text. -/
theorem maskFrom_newline (version : Version) (mode : Mode) (text : List Char) :
    maskFrom version mode (some '\n') text = maskFrom version mode none text := by
  cases text with
  | nil => rfl
  | cons c text =>
      have same : step version mode (some '\n') c text.head? = step version mode none c text.head? := by
        cases mode <;> rfl
      rw [maskFrom, maskFrom, same]

/-- The masked form of whole lines does not depend on what follows them. -/
theorem maskPart_lines {text : List Char} (lines : text = [] ∨ text.getLast? = some '\n')
    (next other : Option Char) :
    maskPart version mode before next text = maskPart version mode before other text ∧
      modeAfter version mode before next text = modeAfter version mode before other text := by
  rcases List.eq_nil_or_concat' text with rfl | ⟨text, c, rfl⟩
  · exact ⟨rfl, rfl⟩
  · obtain rfl : c = '\n' := by simpa using lines
    rw [maskPart_append, maskPart_append, modeAfter_append, modeAfter_append]
    simp only [maskPart, modeAfter, List.head?_cons, List.head?_nil, Option.some_or, Option.none_or,
      step_newline version _ _ next, step_newline version _ _ other, and_self]

/-- No line break opens a string. -/
def Mode.Sound : Mode → Prop
  | .quoted quote | .skipping quote => quote ≠ '\n'
  | _ => True

theorem sound_codeStep (version : Version) (fresh : Bool) (before : Option Char) (c : Char)
    (next : Option Char) : (codeStep version fresh before c next).2.Sound := by
  unfold codeStep
  split
  · trivial
  next other =>
    split
    · trivial
    · split
      · trivial
      · split
        · trivial
        · split
          · trivial
          · split
            · exact fun same => other (beq_iff_eq.2 same)
            · trivial

theorem Mode.Sound.step (sound : mode.Sound) (before : Option Char) (c : Char)
    (next : Option Char) : (Mask.step version mode before c next).2.Sound := by
  cases mode with
  | code fresh => exact sound_codeStep version fresh before c next
  | escaped | opening | closing => trivial
  | remark =>
      rw [Mask.step]
      split <;> trivial
  | comment =>
      rw [Mask.step]
      dsimp only
      split <;> trivial
  | quoted quote =>
      rw [Mask.step, quotedStep]
      split
      · trivial
      · split
        · exact sound
        · split
          · split
            · exact sound
            · trivial
          · exact sound
  | skipping quote => exact sound

theorem Mode.Sound.modeAfter (sound : mode.Sound) :
    (Mask.modeAfter version mode before next text).Sound := by
  induction text generalizing mode before with
  | nil => exact sound
  | cons c text ih => exact ih (sound.step before c _)

/-- Before a line break the masker is in code, in a comment or in a string, but for a backtick. -/
theorem step_before_newline (sound : mode.Sound) {c : Char} (plain : c ≠ '\x60') :
    (∃ fresh, (step version mode before c (some '\n')).2 = .code fresh) ∨
      (step version mode before c (some '\n')).2 = .remark ∨
      (step version mode before c (some '\n')).2 = .comment ∨
      ∃ quote, (step version mode before c (some '\n')).2 = .quoted quote := by
  cases mode with
  | code fresh =>
      rw [step, codeStep]
      split
      · exact .inl ⟨_, rfl⟩
      · split
        · exact .inl ⟨_, rfl⟩
        · split
          next slash => simp at slash
          · split
            · exact .inr (.inl rfl)
            · split
              next escape => exact absurd (beq_iff_eq.1 escape) plain
              · split
                · exact .inr (.inr (.inr ⟨_, rfl⟩))
                · exact .inl ⟨_, rfl⟩
  | escaped | closing => exact .inl ⟨_, rfl⟩
  | remark =>
      rw [step]
      split
      · exact .inl ⟨_, rfl⟩
      · exact .inr (.inl rfl)
  | opening => exact .inr (.inr (.inl rfl))
  | comment =>
      rw [step, if_neg (by simp)]
      exact .inr (.inr (.inl rfl))
  | quoted quote =>
      have other : ¬ '\n' = quote := fun same => sound same.symm
      rw [step, quotedStep]
      split
      · exact .inl ⟨_, rfl⟩
      · split
        next escape => simp [plain] at escape
        · split
          · rw [if_neg (by simp [other])]
            exact .inl ⟨_, rfl⟩
          · exact .inr (.inr (.inr ⟨_, rfl⟩))
  | skipping quote => exact .inr (.inr (.inr ⟨_, rfl⟩))

/-- A line starts in fresh code unless it starts in a comment or the line before ends in a
backtick. -/
theorem modeAfter_line {text : List Char} (lines : text = [] ∨ text.getLast? = some '\n')
    (plain : ∀ body, text ≠ body ++ ['\x60', '\n'])
    (outside : modeAfter version (.code true) none next text ≠ .comment) :
    modeAfter version (.code true) none next text = .code true := by
  rcases List.eq_nil_or_concat' text with rfl | ⟨text, c, rfl⟩
  · rfl
  obtain rfl : c = '\n' := by simpa using lines
  rcases List.eq_nil_or_concat' text with rfl | ⟨text, d, rfl⟩
  · rfl
  have other : d ≠ '\x60' := by
    rintro rfl
    exact plain text (by simp)
  have sound : (modeAfter version (.code true) none (some d) text).Sound := .modeAfter trivial
  rw [modeAfter_append, modeAfter_append] at outside ⊢
  simp only [modeAfter, List.head?_cons, List.head?_nil, Option.some_or, Option.none_or] at outside ⊢
  rcases step_before_newline sound other with ⟨fresh, eq⟩ | eq | eq | ⟨quote, eq⟩
  · rw [eq]
    rfl
  · rw [eq]
    rfl
  · rw [eq] at outside
    exact absurd rfl outside
  · rw [eq]
    rfl

/-! ## Comments on lines of their own -/

/-- A part of a text that masking turns into characters of one kind, and the mode after it. -/
structure Passes (version : Version) (kind : Char → Bool) (mode : Mode) (before next : Option Char)
    (text : List Char) (last : Mode) : Prop where
  blank : ∀ c ∈ maskPart version mode before next text, kind c
  mode_eq : modeAfter version mode before next text = last

section Passes

variable {kind : Char → Bool} {last : Mode} {c : Char}

theorem passes_nil (mode : Mode) : Passes version kind mode before next [] mode :=
  ⟨List.forall_mem_nil _, rfl⟩

theorem Passes.append {middle : Mode}
    (first : Passes version kind mode before (rest.head?.or next) text middle)
    (second : Passes version kind middle (text.getLast?.or before) next rest last) :
    Passes version kind mode before next (text ++ rest) last := by
  constructor
  · rw [maskPart_append, first.mode_eq]
    exact List.forall_mem_append.2 ⟨first.blank, second.blank⟩
  · rw [modeAfter_append, first.mode_eq, second.mode_eq]

/-- A character that is kept. -/
theorem Passes.keep (middle : Mode)
    (stepped : step version mode before c (text.head?.or next) = (true, middle)) (here : kind c)
    (rest : Passes version kind middle (some c) next text last) :
    Passes version kind mode before next (c :: text) last := by
  constructor
  · rw [maskPart, stepped]
    exact List.forall_mem_cons.2 ⟨here, rest.blank⟩
  · rw [modeAfter, stepped]
    exact rest.mode_eq

/-- A character that is masked. -/
theorem Passes.mask (middle : Mode)
    (stepped : step version mode before c (text.head?.or next) = (false, middle)) (space : kind ' ')
    (newline : c = '\n' → kind '\n') (rest : Passes version kind middle (some c) next text last) :
    Passes version kind mode before next (c :: text) last := by
  constructor
  · rw [maskPart, stepped]
    refine List.forall_mem_append.2 ⟨?_, rest.blank⟩
    rw [if_neg Bool.false_ne_true, blanked]
    split
    next same =>
      obtain rfl := beq_iff_eq.1 same
      exact List.forall_mem_singleton.2 (newline rfl)
    next => exact fun place member => List.eq_of_mem_replicate member ▸ space
  · rw [modeAfter, stepped]
    exact rest.mode_eq

/-- Blanks keep the masker in code. -/
theorem passes_blanks {fresh : Bool} (blanks : ∀ c ∈ text, c = ' ' ∨ c = '\t' ∨ c = '\r')
    (kinds : ∀ c ∈ text, kind c) :
    Passes version kind (.code fresh) before next text (.code fresh) := by
  induction text generalizing before with
  | nil => exact passes_nil _
  | cons c text ih =>
      rw [List.forall_mem_cons] at blanks kinds
      refine .keep (.code fresh) ?_ kinds.1 (ih blanks.2 kinds.2)
      rcases blanks.1 with rfl | rfl | rfl <;> rfl

/-- A remark goes on to the end of its line. -/
theorem passes_remark (inLine : '\n' ∉ text) :
    Passes version separates .remark before next (text ++ ['\n']) (.code true) := by
  induction text generalizing before with
  | nil => exact .keep (.code true) rfl rfl (passes_nil _)
  | cons c text ih =>
      rw [List.mem_cons, not_or] at inLine
      have other : (c == '\n') = false := beq_eq_false_iff_ne.2 fun same => inLine.1 same.symm
      have hidden : step version .remark before c ((text ++ ['\n']).head?.or next) =
          (false, .remark) := by
        rw [step, other]
        rfl
      exact .mask .remark hidden rfl (fun _ => rfl) (ih inLine.2)

/-- A block comment goes on until it is closed. -/
theorem passes_inside (closed : ¬ ['*', '/'] <:+: text ++ next.toList) (space : kind ' ')
    (newline : '\n' ∈ text → kind '\n') :
    Passes version kind .comment before next text .comment := by
  induction text generalizing before with
  | nil => exact passes_nil _
  | cons c text ih =>
      have hidden : step version .comment before c (text.head?.or next) = (false, .comment) := by
        rw [step, if_neg]
        rw [Bool.and_eq_true, beq_iff_eq, beq_iff_eq]
        rintro ⟨rfl, slash⟩
        refine closed ?_
        cases text with
        | nil =>
            obtain rfl : next = some '/' := by simpa using slash
            exact ⟨[], [], rfl⟩
        | cons d text =>
            obtain rfl : d = '/' := by simpa using slash
            exact ⟨[], text ++ next.toList, rfl⟩
      exact .mask .comment hidden space (fun same => newline (same ▸ List.mem_cons_self))
        (ih (fun inside => closed (inside.trans (List.suffix_cons c _).isInfix))
          fun member => newline (List.mem_cons_of_mem _ member))

end Passes

/-- A comment on lines of its own: a remark after a semicolon, or a block comment that is closed on
a later line than that on which it opens. -/
inductive Comment : List Char → Prop
  | remark {indent body : List Char} (indents : ∀ c ∈ indent, isIndent c) (inLine : '\n' ∉ body) :
      Comment (indent ++ ';' :: (body ++ ['\n']))
  | block {indent first body trail : List Char} (indents : ∀ c ∈ indent, isIndent c)
      (inLine : '\n' ∉ first) (closed : ¬ ['*', '/'] <:+: first ++ '\n' :: (body ++ ['*']))
      (trails : ∀ c ∈ trail, c = ' ' ∨ c = '\t' ∨ c = '\r') :
      Comment (indent ++ '/' :: '*' :: (first ++ '\n' :: (body ++ '*' :: '/' :: (trail ++ ['\n']))))

theorem Comment.getLast?_eq (comment : Comment text) : text.getLast? = some '\n' := by
  cases comment with
  | remark indents inLine => simp [List.getLast?_append, List.getLast?_cons]
  | block indents inLine closed trails => simp [List.getLast?_append, List.getLast?_cons]

theorem blank_of_isIndent {indent : List Char} (indents : ∀ c ∈ indent, isIndent c) :
    ∀ c ∈ indent, c = ' ' ∨ c = '\t' ∨ c = '\r' := by
  intro c member
  have blank := indents c member
  rw [isIndent, Bool.or_eq_true, beq_iff_eq, beq_iff_eq] at blank
  exact blank.imp_right .inl

theorem separates_of_blank {blanks : List Char} (all : ∀ c ∈ blanks, c = ' ' ∨ c = '\t' ∨ c = '\r') :
    ∀ c ∈ blanks, separates c := by
  intro c member
  rcases all c member with rfl | rfl | rfl <;> rfl

/-- The first line of a block comment becomes blanks and tabs. -/
theorem passes_opening {indent first : List Char} (indents : ∀ c ∈ indent, isIndent c)
    (inLine : '\n' ∉ first) (closed : ¬ ['*', '/'] <:+: first ++ ['\n']) :
    Passes version isIndent (.code true) before (some '\n') (indent ++ '/' :: '*' :: first)
      .comment := by
  refine (passes_blanks (blank_of_isIndent indents) indents).append ?_
  refine .mask .opening rfl rfl (by rintro ⟨⟩) ?_
  refine .mask .comment rfl rfl (by rintro ⟨⟩) ?_
  exact passes_inside closed rfl fun member => absurd member inLine

/-- A comment becomes blanks and leaves the masker in fresh code. -/
theorem passes_comment (comment : Comment text) (separated : before.all separates) :
    Passes version separates (.code true) before next text (.code true) := by
  cases comment with
  | @remark indent body indents inLine =>
      have blanks := blank_of_isIndent indents
      have separated : (indent.getLast?.or before).all separates := by
        cases last : indent.getLast? with
        | none => simpa using separated
        | some c => exact separates_of_blank blanks c (List.mem_of_getLast? last)
      refine (passes_blanks blanks (separates_of_blank blanks)).append ?_
      refine .mask .remark ?_ rfl (by rintro ⟨⟩) (passes_remark inLine)
      rw [step, codeStep, separated]
      rfl
  | @block indent first body trail indents inLine closed trails =>
      have blanks := blank_of_isIndent indents
      have whole : first ++ '\n' :: (body ++ '*' :: '/' :: (trail ++ ['\n'])) =
          (first ++ '\n' :: body) ++ '*' :: '/' :: (trail ++ ['\n']) := by simp
      refine (passes_blanks blanks (separates_of_blank blanks)).append ?_
      refine .mask .opening rfl rfl (by rintro ⟨⟩) ?_
      refine .mask .comment rfl rfl (by rintro ⟨⟩) ?_
      rw [whole]
      refine (passes_inside (by simpa using closed) rfl fun _ => rfl).append ?_
      refine .mask .closing rfl rfl (by rintro ⟨⟩) ?_
      refine .mask (.code false) rfl rfl (by rintro ⟨⟩) ?_
      exact (passes_blanks trails (separates_of_blank trails)).append
        (.keep (.code true) rfl rfl (passes_nil _))

end Mask
end DebugBridge
