import DebugBridge.Text.Blank

/-!
Messages of logpoints.  Expressions stand between braces and are replaced by their values; a brace
after a backslash is text.  A brace that is never closed is text too.
-/

namespace DebugBridge

/-- A part of a message. -/
inductive LogSegment where
  /-- Text that is printed as it is. -/
  | text (content : String)
  /-- An expression whose value is printed. -/
  | expression (source : String)
  deriving DecidableEq, Repr

namespace LogMessage

/-- What stands before the brace that closes one already open, `depth` more being open inside it,
and what stands after it. -/
def closing (depth : Nat) : List Char → Option (List Char × List Char)
  | [] => none
  | c :: rest =>
    let deeper := fun depth => (closing depth rest).map fun (inside, after) => (c :: inside, after)
    if c == '\x7b' then deeper (depth + 1)
    else if c == '\x7d' then
      match depth with
      | 0 => some ([], rest)
      | depth + 1 => deeper depth
    else deeper depth

/-- What follows the closing brace is shorter than what it was found in. -/
theorem closing_length {depth : Nat} {text inside after : List Char}
    (found : closing depth text = some (inside, after)) : after.length < text.length := by
  induction text generalizing depth inside after with
  | nil => simp [closing] at found
  | cons c rest ih =>
    have deeper : ∀ {next : Nat}, (closing next rest).map
        (fun pair => (c :: pair.1, pair.2)) = some (inside, after) →
          after.length < (c :: rest).length := by
      intro next mapped
      obtain ⟨⟨before, tail⟩, inner, same⟩ := Option.map_eq_some_iff.1 mapped
      have := ih inner
      simp only [Prod.mk.injEq] at same
      obtain ⟨-, rfl⟩ := same
      simp only [List.length_cons]
      omega
    simp only [closing] at found
    split at found
    · exact deeper found
    · split at found
      · cases depth with
        | zero =>
          simp only [Option.some.injEq, Prod.mk.injEq] at found
          obtain ⟨-, rfl⟩ := found
          simp
        | succ depth => exact deeper found
      · exact deeper found

/-- The text collected so far as a segment, if there is any. -/
def flush (collected : List Char) : List LogSegment :=
  if collected.isEmpty then [] else [.text (String.ofList collected.reverse)]

/-- An expression as a segment, if it is not blank. -/
def expressionSegment (inside : List Char) : List LogSegment :=
  let source := Text.trim inside
  if source.isEmpty then [] else [.expression (String.ofList source)]

/-- Whether a character is a brace. -/
def isBrace (c : Char) : Bool := c == '\x7b' || c == '\x7d'

/-- The segments of the rest of a message, `collected` being the text before it, reversed. -/
def segmentsFrom (collected : List Char) (message : List Char) : List LogSegment :=
  match message with
  | [] => flush collected
  | c :: rest =>
    if c == '\\' then
      match rest with
      | brace :: after =>
        if isBrace brace then segmentsFrom (brace :: collected) after
        else segmentsFrom (c :: collected) (brace :: after)
      | [] => segmentsFrom (c :: collected) []
    else if c == '\x7b' then
      match found : closing 0 rest with
      | some (inside, after) =>
        have := closing_length found
        flush collected ++ expressionSegment inside ++ segmentsFrom [] after
      | none => segmentsFrom (c :: collected) rest
    else segmentsFrom (c :: collected) rest
termination_by message.length
decreasing_by all_goals (simp only [List.length_cons, List.length_nil]; omega)

/-- The segments of a message. -/
def parse (message : String) : List LogSegment := segmentsFrom [] message.toList

/-- A text with a backslash before every brace. -/
def escaped (text : List Char) : List Char :=
  text.flatMap fun c => if isBrace c then ['\\', c] else [c]

/-- A segment as it stands in a message. -/
def renderSegment : LogSegment → List Char
  | .text content => escaped content.toList
  | .expression source => '\x7b' :: source.toList ++ ['\x7d']

/-- A message with given segments. -/
def render (segments : List LogSegment) : String := String.ofList (segments.flatMap renderSegment)

end LogMessage
end DebugBridge
