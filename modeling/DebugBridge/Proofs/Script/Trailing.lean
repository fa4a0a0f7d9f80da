import DebugBridge.Proofs.Script.Offsets
import Mathlib.Data.List.Forall2

/-!
# A blank at the end of a line

No recogniser of headers notices a blank that is put at the end of its line.  What is left of the line
at any point gains the blank, too, unless indentation has just been skipped up to the end.
-/

namespace DebugBridge

/-- Two searches whose next steps agree on related results agree. -/
theorem bind_eq_of_rel {α β γ : Type} {related : α → β → Prop} {a : Option α} {b : Option β}
    {f : α → Option γ} {g : β → Option γ} (rel : Option.Rel related a b)
    (same : ∀ x y, related x y → g y = f x) : b.bind g = a.bind f := by
  cases rel with
  | none => rfl
  | some here => exact same _ _ here

/-- Two searches go on alike if their next steps do on related results. -/
theorem rel_bind {α β γ δ : Type} {related : α → β → Prop} {later : γ → δ → Prop} {a : Option α}
    {b : Option β} {f : α → Option γ} {g : β → Option δ} (rel : Option.Rel related a b)
    (next : ∀ x y, related x y → Option.Rel later (f x) (g y)) :
    Option.Rel later (a.bind f) (b.bind g) := by
  cases rel with
  | none => exact .none
  | some here => exact next _ _ here

theorem rel_map_some {α β : Type} {related : α → β → Prop} {a : Option α} {b : Option β}
    (rel : Option.Rel related a b) : Option.Rel (Option.Rel related) (a.map some) (b.map some) := by
  cases rel with
  | none => exact .none
  | some here => exact .some (.some here)

namespace Header

open Text

/-- A line, and the same line or with a blank at its end. -/
def Padded (line line' : List Char) : Prop := line' = line ∨ line' = line ++ [' ']

theorem Padded.eq_of {α : Type} {line line' : List Char} (padded : Padded line line')
    {f : List Char → α} (trailing : ∀ line, f (line ++ [' ']) = f line) : f line' = f line := by
  rcases padded with rfl | rfl
  · rfl
  · exact trailing line

/-- A blank at the end of a line with code is no indentation. -/
theorem Padded.takeWhile_eq {line line' : List Char} (padded : Padded line line') {c : Char}
    (member : c ∈ line) (code : isIndent c = false) :
    line'.takeWhile isIndent = line.takeWhile isIndent := by
  have short : ¬ (line.takeWhile isIndent).length = line.length := by
    intro whole
    have all := List.takeWhile_eq_self_iff.1 ((List.takeWhile_prefix _).eq_of_length whole) c member
    rw [code] at all
    cases all
  rcases padded with rfl | rfl
  · rfl
  · rw [List.takeWhile_append, if_neg short]

/-- What is left of a line, and of the line with a blank at its end. -/
inductive Trails : List Char → List Char → Prop
  | blank (rest : List Char) : Trails rest (rest ++ [' '])
  | nothing : Trails [] []

variable {line rest rest' : List Char}

theorem Trails.skipIndent (trails : Trails rest rest') :
    Trails (skipIndent rest) (Header.skipIndent rest') := by
  cases trails with
  | nothing => exact .nothing
  | blank =>
      rw [Header.skipIndent, Header.skipIndent, List.dropWhile_append]
      split
      next empty =>
        rw [List.isEmpty_iff] at empty
        rw [empty]
        exact .nothing
      next => exact .blank _

theorem afterKeyword?_trailing {word : List Char} (plain : ' ' ∉ word) (text : List Char) :
    afterKeyword? word (text ++ [' ']) = (afterKeyword? word text).map (· ++ [' ']) := by
  induction word generalizing text with
  | nil => rfl
  | cons letter word ih =>
      rw [List.mem_cons, not_or] at plain
      cases text with
      | nil =>
          have other : ¬ sameLetter letter ' ' = true := fun same =>
            ne_space_of_sameLetter (Ne.symm plain.1) same rfl
          rw [List.nil_append, afterKeyword?, afterKeyword?, if_neg other]
          rfl
      | cons c text =>
          rw [List.cons_append, afterKeyword?, afterKeyword?]
          split
          · exact ih plain.2 text
          · rfl

theorem Trails.afterKeyword? {word : List Char} (plain : ' ' ∉ word) (trails : Trails rest rest') :
    Option.Rel Trails (afterKeyword? word rest) (Header.afterKeyword? word rest') := by
  cases trails with
  | nothing =>
      cases word with
      | nil => exact .some .nothing
      | cons letter word => exact .none
  | blank =>
      rw [afterKeyword?_trailing plain]
      cases Header.afterKeyword? word rest with
      | none => exact .none
      | some after => exact .some (.blank after)

theorem Trails.run? {p : Char → Bool} (outside : p ' ' = false) (trails : Trails rest rest') :
    Option.Rel (fun run run' => run'.1 = run.1 ∧ Trails run.2 run'.2) (run? p rest)
      (Header.run? p rest') := by
  cases trails with
  | nothing => exact .none
  | blank =>
      have ends : (rest ++ [' ']).takeWhile p = rest.takeWhile p ∧
          (rest ++ [' ']).dropWhile p = rest.dropWhile p ++ [' '] := by
        induction rest with
        | nil => simp [outside]
        | cons c rest ih =>
            rw [List.cons_append, List.takeWhile_cons, List.takeWhile_cons, List.dropWhile_cons,
              List.dropWhile_cons, ih.1, ih.2]
            split <;> exact ⟨rfl, rfl⟩
      rw [Header.run?, Header.run?, ends.1, ends.2]
      cases rest.takeWhile p with
      | nil => exact .none
      | cons c name => exact .some ⟨rfl, .blank _⟩

/-- A gap before the end of a line shows only where nothing is expected. -/
theorem Trails.afterGap?_bind {α : Type} {f g : List Char → Option α} (trails : Trails rest rest')
    (nothing : g [] = none) (same : ∀ {rest rest'}, Trails rest rest' → g rest' = f rest) :
    (Header.afterGap? rest').bind g = (afterGap? rest).bind f := by
  have skipped := same trails.skipIndent
  cases trails with
  | nothing => rfl
  | blank =>
      cases rest with
      | nil => exact nothing
      | cons c rest =>
          rw [afterGap?, afterGap?, List.cons_append, List.head?_cons, List.head?_cons]
          split
          · exact skipped
          · rfl

theorem Trails.cons {c : Char} (trails : Trails (c :: rest) rest') : rest' = c :: (rest ++ [' ']) := by
  cases trails
  rfl

theorem Trails.take_eq (trails : Trails rest rest') {count : Nat} (long : count ≤ rest.length) :
    rest'.take count = rest.take count := by
  cases trails with
  | nothing => rfl
  | blank => exact List.take_append_of_le_length long

theorem offsetOf_trailing (line rest : List Char) :
    offsetOf (line ++ [' ']) (rest ++ [' ']) = offsetOf line rest := by
  rw [offsetOf, offsetOf, byteLength_append, byteLength_append, Nat.add_sub_add_right]

theorem Trails.offsetOf {c : Char} (trails : Trails (c :: rest) rest') :
    Header.offsetOf (line ++ [' ']) rest' = offsetOf line (c :: rest) := by
  rw [trails.cons]
  exact offsetOf_trailing line (c :: rest)

theorem Trails.skipIndent_nil (trails : Trails rest rest') (empty : Header.skipIndent rest = []) :
    Header.skipIndent rest' = [] := by
  cases trails with
  | nothing => rfl
  | blank =>
      rw [Header.skipIndent, List.dropWhile_eq_nil_iff] at empty ⊢
      exact List.forall_mem_append.2 ⟨empty, List.forall_mem_singleton.2 rfl⟩

/-! ## Ends of headers -/

theorem Trails.bracePart? (trails : Trails rest rest') :
    Header.bracePart? (line ++ [' ']) rest' = bracePart? line rest := by
  have skipped := trails.skipIndent
  rw [Header.bracePart?, Header.bracePart?]
  cases code : Header.skipIndent rest with
  | nil => rw [trails.skipIndent_nil code]
  | cons c more =>
      rw [code] at skipped
      have offset : Header.offsetOf (line ++ [' ']) (Header.skipIndent rest') =
          Header.offsetOf line (c :: more) :=
        skipped.offsetOf
      rw [skipped.cons] at offset ⊢
      by_cases brace : c = '{'
      · subst brace
        simp only [offset]
      · simp [brace]

theorem Trails.ending? (trails : Trails rest rest') :
    Header.ending? (line ++ [' ']) rest' = ending? line rest := by
  have skipped := trails.skipIndent
  rw [Header.ending?, Header.ending?]
  cases code : Header.skipIndent rest with
  | nil => rw [trails.skipIndent_nil code]
  | cons c more =>
      rw [code] at skipped
      have offset : Header.offsetOf (line ++ [' ']) (Header.skipIndent rest') =
          Header.offsetOf line (c :: more) :=
        skipped.offsetOf
      rw [skipped.cons] at offset ⊢
      by_cases brace : c = '{'
      · subst brace
        have empty : (Header.skipIndent (more ++ [' '])).isEmpty = (Header.skipIndent more).isEmpty := by
          have blank := Trails.blank more
          cases inner : Header.skipIndent more with
          | nil => rw [blank.skipIndent_nil inner]
          | cons d others =>
              have inside := blank.skipIndent
              rw [inner] at inside
              rw [inside.cons]
              rfl
        simp only [offset, empty]
      · by_cases arrow : c = '='
        · subst arrow
          cases more with
          | nil => rfl
          | cons d more =>
              by_cases tip : d = '>'
              · subst tip
                rfl
              · simp [tip]
        · simp [brace, arrow]

theorem Trails.afterBrackets? (trails : Trails rest rest') :
    Option.Rel (fun after after' => after' = after ++ [' ']) (afterBrackets? rest)
      (Header.afterBrackets? rest') := by
  cases trails with
  | nothing => exact .none
  | blank =>
      cases rest with
      | nil => exact .none
      | cons c inner =>
          by_cases bracket : c = '['
          · subst bracket
            rw [List.cons_append, Header.afterBrackets?, Header.afterBrackets?, List.dropWhile_append]
            cases closing : inner.dropWhile (· != ']') with
            | nil => exact .none
            | cons d rest => exact .some rfl
          · simp [Header.afterBrackets?, bracket]

/-! ## Headers -/

theorem extension?_trailing (trails : Trails rest rest') :
    extension? (line ++ [' ']) rest' = extension? line rest := by
  rw [extension?, extension?]
  refine trails.afterGap?_bind rfl fun trails => ?_
  refine bind_eq_of_rel (trails.afterKeyword? (by decide)) fun _ _ trails => ?_
  refine trails.afterGap?_bind rfl fun trails => ?_
  refine bind_eq_of_rel (trails.run? (by decide)) fun run run' same => ?_
  obtain ⟨base, rest⟩ := run
  obtain ⟨base', rest'⟩ := run'
  obtain ⟨rfl, trails⟩ := same
  dsimp only
  rw [trails.bracePart?]

theorem classHeader?_trailing (line : List Char) : classHeader? (line ++ [' ']) = classHeader? line := by
  rw [classHeader?, classHeader?]
  refine bind_eq_of_rel ((Trails.blank line).skipIndent.afterKeyword? (by decide)) fun _ _ trails => ?_
  refine trails.afterGap?_bind rfl fun trails => ?_
  refine bind_eq_of_rel (trails.run? (by decide)) fun run run' same => ?_
  obtain ⟨name, rest⟩ := run
  obtain ⟨name', rest'⟩ := run'
  obtain ⟨rfl, trails⟩ := same
  dsimp only
  rw [extension?_trailing trails, trails.bracePart?]

theorem namedParen?_trailing (isStatic : Bool) (trails : Trails rest rest') :
    namedParen? (line ++ [' ']) isStatic rest' = namedParen? line isStatic rest := by
  rw [namedParen?, namedParen?]
  refine bind_eq_of_rel (trails.run? (by decide)) fun run run' same => ?_
  obtain ⟨name, rest⟩ := run
  obtain ⟨name', rest'⟩ := run'
  obtain ⟨rfl, trails⟩ := same
  dsimp only at trails ⊢
  cases rest with
  | nil => cases trails <;> rfl
  | cons c rest =>
      rw [trails.offsetOf, trails.cons]
      rfl

theorem functionHeader?_trailing (line : List Char) :
    functionHeader? (line ++ [' ']) = functionHeader? line := by
  have begins := (Trails.blank line).skipIndent
  rw [functionHeader?_eq, functionHeader?_eq, namedParen?_trailing false begins, Option.bind_assoc,
    Option.bind_assoc]
  congr 1
  refine bind_eq_of_rel (begins.afterKeyword? (by decide)) fun _ _ trails => ?_
  exact trails.afterGap?_bind rfl fun trails => namedParen?_trailing true trails

theorem namedProperty?_trailing (isStatic : Bool) (trails : Trails rest rest') :
    namedProperty? (line ++ [' ']) isStatic rest' = namedProperty? line isStatic rest := by
  rw [namedProperty?, namedProperty?]
  refine bind_eq_of_rel (trails.run? (by decide)) fun run run' same => ?_
  obtain ⟨name, rest⟩ := run
  obtain ⟨name', rest'⟩ := run'
  obtain ⟨rfl, trails⟩ := same
  dsimp only at trails ⊢
  have skipped := trails.skipIndent
  have brackets := skipped.afterBrackets?
  generalize opened : afterBrackets? (skipIndent rest) = found at brackets
  generalize afterBrackets? (skipIndent rest') = found' at brackets ⊢
  cases brackets with
  | none => rw [skipped.ending?]
  | @some after _ same =>
      subst same
      obtain ⟨inner, split⟩ := afterBrackets?_split opened
      have first := skipped
      rw [split] at first
      dsimp only
      rw [(Trails.blank after).ending?, split, first.offsetOf, offsetOf_trailing]
      rfl

theorem propertyHeader?_trailing (line : List Char) :
    propertyHeader? (line ++ [' ']) = propertyHeader? line := by
  have begins := (Trails.blank line).skipIndent
  rw [propertyHeader?_eq, propertyHeader?_eq, namedProperty?_trailing false begins, Option.bind_assoc,
    Option.bind_assoc]
  congr 1
  refine bind_eq_of_rel (begins.afterKeyword? (by decide)) fun _ _ trails => ?_
  exact trails.afterGap?_bind rfl fun trails => namedProperty?_trailing true trails

theorem accessorHeader?_trailing (line : List Char) :
    accessorHeader? (line ++ [' ']) = accessorHeader? line := by
  have begins := (Trails.blank line).skipIndent
  have keyword (word : List Char) (plain : ' ' ∉ word) (three : word.length = 3) :
      Option.Rel (fun rest rest' => Trails rest rest' ∧
          (skipIndent (line ++ [' '])).take 3 = (skipIndent line).take 3)
        (afterKeyword? word (skipIndent line)) (afterKeyword? word (skipIndent (line ++ [' ']))) := by
    have rel := begins.afterKeyword? plain
    generalize found : afterKeyword? word (skipIndent line) = rest at rel ⊢
    generalize afterKeyword? word (skipIndent (line ++ [' '])) = rest' at rel ⊢
    cases rel with
    | none => exact .none
    | some trails =>
        refine .some ⟨trails, ?_⟩
        have long : 3 ≤ (skipIndent line).length := by
          obtain ⟨read, split, length, -⟩ :=
            afterKeyword?_split (fun letter member space => plain (space ▸ member)) found
          rw [split, List.length_append]
          omega
        exact begins.take_eq long
  have get := keyword "get".toList (by decide) rfl
  have set := keyword "set".toList (by decide) rfl
  rw [accessorHeader?, accessorHeader?]
  have either : Option.Rel (fun rest rest' => Trails rest rest' ∧
        (skipIndent (line ++ [' '])).take 3 = (skipIndent line).take 3)
      (afterKeyword? "get".toList (skipIndent line) <|> afterKeyword? "set".toList (skipIndent line))
      (afterKeyword? "get".toList (skipIndent (line ++ [' '])) <|>
        afterKeyword? "set".toList (skipIndent (line ++ [' ']))) := by
    generalize afterKeyword? "get".toList (skipIndent line) = rest at get ⊢
    generalize afterKeyword? "get".toList (skipIndent (line ++ [' '])) = rest' at get ⊢
    cases get with
    | none => exact set
    | some same => exact .some same
  refine bind_eq_of_rel either fun rest rest' same => ?_
  rw [same.1.ending?, same.2]

/-! ## Comments and directives -/

theorem isSome_afterStart_concat {a b c : Char} (first : a ≠ c) (second : b ≠ c) (text : List Char) :
    (afterStart [a, b] (text ++ [c])).isSome = (afterStart [a, b] text).isSome := by
  rcases text with _ | ⟨d, _ | ⟨e, text⟩⟩
  · simp [afterStart, first]
  · simp [afterStart, second]
  · simp only [List.cons_append, afterStart]
    split_ifs <;> rfl

/-- No character but those of its opening opens a comment at the end of a line. -/
theorem opensComment_concat {c : Char} (slash : '/' ≠ c) (star : '*' ≠ c) (line : List Char) :
    opensComment (line ++ [c]) = opensComment line := by
  rw [opensComment, opensComment, skipIndent, skipIndent, List.dropWhile_append]
  split
  next empty =>
    rw [List.isEmpty_iff.1 empty]
    by_cases indent : isIndent c = true
    · rw [List.dropWhile_cons_of_pos indent]
      rfl
    · rw [List.dropWhile_cons_of_neg indent]
      exact isSome_afterStart_concat slash star []
  next => exact isSome_afterStart_concat slash star _

theorem inclusion?_trailing (line : List Char) : inclusion? (line ++ [' ']) =
    (inclusion? line).map fun header => { header with argument := header.argument ++ [' '] } := by
  have skipped := (Trails.blank line).skipIndent
  have ends (text : List Char) : endsWord (text ++ [' ']) = endsWord text := by
    cases text <;> rfl
  have hash : afterStart ['#'] (skipIndent (line ++ [' '])) =
      (afterStart ['#'] (skipIndent line)).map (· ++ [' ']) := by
    generalize skipIndent line = text at skipped ⊢
    generalize skipIndent (line ++ [' ']) = text' at skipped ⊢
    cases skipped with
    | nothing => rfl
    | blank =>
        cases text with
        | nil => rfl
        | cons c text =>
            simp only [List.cons_append, afterStart]
            split <;> rfl
  rw [inclusion?, inclusion?, hash]
  cases afterStart ['#'] (skipIndent line) with
  | none => rfl
  | some word =>
      simp only [Option.map_some, Option.bind_eq_bind, Option.bind_some]
      rw [afterKeyword?_trailing (by decide)]
      cases afterKeyword? "include".toList word with
      | none => rfl
      | some rest =>
          simp only [Option.map_some, Option.bind_some]
          rw [afterKeyword?_trailing (by decide)]
          cases afterKeyword? "again".toList rest with
          | none =>
              simp only [Option.map_none, ends, offsetOf_trailing]
              split <;> rfl
          | some argument =>
              simp only [Option.map_some, ends, offsetOf_trailing]
              split <;> rfl

theorem isDirective_trailing (line : List Char) : isDirective (line ++ [' ']) = isDirective line := by
  have skipped := (Trails.blank line).skipIndent
  rw [isDirective, isDirective]
  generalize skipIndent line = text at skipped ⊢
  generalize skipIndent (line ++ [' ']) = text' at skipped ⊢
  cases skipped with
  | nothing => rfl
  | blank =>
      cases text with
      | nil => rfl
      | cons c text =>
          by_cases hash : c = '#'
          · subst hash
            cases text <;> rfl
          · simp [hash]

theorem occursIn_trailing (line : List Char) :
    occursIn [':', ':'] (line ++ [' ']) = occursIn [':', ':'] line := by
  induction line with
  | nil => rfl
  | cons c line ih =>
      have colon : ':' ≠ ' ' := by decide
      have here := isSome_afterStart_concat colon colon (c :: line)
      rw [List.cons_append] at here ⊢
      rw [occursIn, occursIn, ih, here]

theorem allBlank_trailing (line : List Char) : allBlank (line ++ [' ']) = allBlank line := by
  rw [allBlank, allBlank, List.all_append]
  exact Bool.and_true _

theorem trimEnd_trailing (line : List Char) : trimEnd (line ++ [' ']) = trimEnd line := by
  rw [trimEnd, trimEnd, dropEndWhile, dropEndWhile, List.reverse_append]
  rfl

theorem trim_trailing (line : List Char) : trim (line ++ [' ']) = trim line := by
  rw [trim, trim, trimStart, trimStart, List.dropWhile_append]
  split
  next empty =>
    rw [List.isEmpty_iff.1 empty]
    rfl
  next => exact trimEnd_trailing _

/-- An include directive is read with the same argument, but for blanks after it. -/
theorem Padded.inclusion? {line line' : List Char} (padded : Padded line line') :
    Option.Rel (fun header header' => header'.again = header.again ∧ header'.offset = header.offset ∧
        trimEnd header'.argument = trimEnd header.argument)
      (inclusion? line) (Header.inclusion? line') := by
  rcases padded with rfl | rfl
  · cases Header.inclusion? line' with
    | none => exact .none
    | some header => exact .some ⟨rfl, rfl, rfl⟩
  · rw [inclusion?_trailing]
    cases Header.inclusion? line with
    | none => exact .none
    | some header => exact .some ⟨rfl, rfl, trimEnd_trailing _⟩

end Header
end DebugBridge
