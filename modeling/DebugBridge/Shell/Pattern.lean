/-!
Patterns that texts are matched with.  A star stands for any text, a question mark for any
character, and brackets for one of some characters; a quoted character stands for itself.
-/

namespace DebugBridge
namespace Shell

/-- An element of a pattern. -/
inductive PatternItem where
  /-- A character. -/
  | char (c : Char)
  /-- Any character. -/
  | any
  /-- Any text. -/
  | star
  /-- One of some ranges of characters, or none of them. -/
  | oneOf (negated : Bool) (ranges : List (Char × Char))
  deriving DecidableEq, Repr

namespace Pattern

/-- The ranges between brackets, up to the closing one, and the rest. -/
def ranges : (fuel : Nat) → Bool → List (Char × Bool) →
    Option (List (Char × Char) × List (Char × Bool))
  | 0, _, _ => none
  | _, _, [] => none
  | fuel + 1, isFirst, (c, quoted) :: rest =>
    if c == ']' && !isFirst && !quoted then some ([], rest)
    else
      match rest with
      | ('-', false) :: (last, _) :: after =>
        if last == ']' then
          (ranges fuel false rest).map fun (others, rest) => ((c, c) :: others, rest)
        else (ranges fuel false after).map fun (others, rest) => ((c, last) :: others, rest)
      | rest => (ranges fuel false rest).map fun (others, rest) => ((c, c) :: others, rest)

/-- The pattern that characters stand for, each with whether it is quoted. -/
def read : (fuel : Nat) → List (Char × Bool) → List PatternItem
  | 0, _ => []
  | _, [] => []
  | fuel + 1, (c, quoted) :: rest =>
    if quoted then .char c :: read fuel rest
    else if c == '*' then .star :: read fuel rest
    else if c == '?' then .any :: read fuel rest
    else if c == '[' then
      let negated := rest.head? == some ('!', false) || rest.head? == some ('^', false)
      match ranges fuel true (if negated then rest.drop 1 else rest) with
      | some (ranges, rest) => .oneOf negated ranges :: read fuel rest
      | none => .char c :: read fuel rest
    else .char c :: read fuel rest

/-- Whether a pattern is more than plain text. -/
def isProper (pattern : List PatternItem) : Bool :=
  pattern.any fun
    | .char _ => false
    | _ => true

/-- Whether a character matches an item other than a star. -/
def matchesChar (c : Char) : PatternItem → Bool
  | .char wanted => c == wanted
  | .any => true
  | .star => false
  | .oneOf negated ranges => (ranges.any fun (first, last) => first ≤ c && c ≤ last) != negated

/-- Whether a whole text matches a pattern. -/
def accepts : List PatternItem → List Char → Bool
  | [], text => text.isEmpty
  | .star :: rest, text =>
    accepts rest text ||
      match text with
      | [] => false
      | _ :: tail => accepts (.star :: rest) tail
  | _ :: _, [] => false
  | item :: rest, c :: tail => matchesChar c item && accepts rest tail
termination_by pattern text => pattern.length + text.length

/-- The lengths from zero to that of a text, longer ones first if that is wanted. -/
def lengths (longest : Bool) (text : List Char) : List Nat :=
  if longest then (List.range (text.length + 1)).reverse else List.range (text.length + 1)

/-- The text without a match at its front. -/
def dropFront (longest : Bool) (pattern : List PatternItem) (text : List Char) : List Char :=
  match (lengths longest text).find? fun length => accepts pattern (text.take length) with
  | some length => text.drop length
  | none => text

/-- The text without a match at its back. -/
def dropBack (longest : Bool) (pattern : List PatternItem) (text : List Char) : List Char :=
  match (lengths longest text).find? fun length =>
    accepts pattern (text.drop (text.length - length)) with
  | some length => text.take (text.length - length)
  | none => text

end Pattern
end Shell
end DebugBridge
