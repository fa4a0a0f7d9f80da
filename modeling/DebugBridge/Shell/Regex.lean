import DebugBridge.Shell.Pattern
import DebugBridge.Text.Number

/-!
Basic regular expressions: characters, a dot for any of them, brackets, groups, repetition by a
star, references back to groups, and the two ends of the text.  Of several matches at one place the
one counts in which earlier parts take as much as they can.
-/

namespace DebugBridge
namespace Shell

/-- A part of an expression. -/
inductive Regex where
  /-- One character. -/
  | item (wanted : PatternItem)
  /-- A group with its number. -/
  | group (number : Nat) (body : List Regex)
  /-- Any number of times. -/
  | star (part : Regex)
  /-- What a group has matched. -/
  | again (number : Nat)
  /-- The start of the text. -/
  | start
  /-- The end of the text. -/
  | finish

namespace Regex

/-- The part at the front of an expression without its repetition, the number of groups so far, and
the rest; a closing parenthesis ends the expression. -/
def read : (fuel groups : Nat) → (isFirst : Bool) → List Char → List Regex × Nat × List Char
  | 0, groups, _, text => ([], groups, text)
  | _, groups, _, [] => ([], groups, [])
  | fuel + 1, groups, isFirst, c :: rest =>
    let repeated := fun (part : Regex) (groups : Nat) (rest : List Char) =>
      let (part, rest) := match rest with
        | '*' :: rest => (Regex.star part, rest)
        | rest => (part, rest)
      let (others, groups, rest) := read fuel groups false rest
      (part :: others, groups, rest)
    if c == '\\' then
      match rest with
      | '(' :: rest =>
        let number := groups + 1
        let (body, groups, rest) := read fuel number true rest
        repeated (.group number body) groups rest
      | ')' :: rest => ([], groups, rest)
      | d :: rest =>
        if Text.isDigit d then repeated (.again (d.toNat - '0'.toNat)) groups rest
        else repeated (.item (.char d)) groups rest
      | [] => ([.item (.char c)], groups, [])
    else if c == '^' && isFirst then
      let (others, groups, rest) := read fuel groups false rest
      (.start :: others, groups, rest)
    else if c == '$' && (rest.isEmpty || ['\\', ')'].isPrefixOf rest) then
      let (others, groups, rest) := read fuel groups false rest
      (.finish :: others, groups, rest)
    else if c == '.' then repeated (.item .any) groups rest
    else if c == '[' then
      let negated := rest.head? == some '^'
      let inside := (if negated then rest.drop 1 else rest).map fun c => (c, false)
      match Pattern.ranges (rest.length + 1) true inside with
      | some (ranges, rest) => repeated (.item (.oneOf negated ranges)) groups (rest.map Prod.fst)
      | none => repeated (.item (.char c)) groups rest
    else repeated (.item (.char c)) groups rest

/-- The expression that a text stands for. -/
def ofText (text : List Char) : List Regex := (read (text.length + 1) 0 true text).1

/-- What groups have matched, the latest first. -/
abbrev Groups := List (Nat × List Char)

/-- What a group has matched. -/
def found (groups : Groups) (number : Nat) : List Char :=
  ((groups.find? fun group => group.1 == number).map Prod.snd).getD []

/-- Matches an expression at the front of a text of which `total` characters were there at first,
and goes on with what follows it. -/
def matchFront (total : Nat) : (fuel : Nat) → List Regex → List Char → Groups →
    (List Char → Groups → Option (List Char × Groups)) → Option (List Char × Groups)
  | 0, _, _, _, _ => none
  | _ + 1, [], text, groups, next => next text groups
  | fuel + 1, part :: parts, text, groups, next =>
    let goOn := fun text groups => matchFront total fuel parts text groups next
    match part with
    | .item wanted =>
      match text with
      | c :: rest => if Pattern.matchesChar c wanted then goOn rest groups else none
      | [] => none
    | .start => if text.length == total then goOn text groups else none
    | .finish => if text.isEmpty then goOn text groups else none
    | .again number =>
      let wanted := found groups number
      if wanted.isPrefixOf text then goOn (text.drop wanted.length) groups else none
    | .group number body =>
      matchFront total fuel body text groups fun rest groups =>
        goOn rest ((number, text.take (text.length - rest.length)) :: groups)
    | .star part =>
      let more := matchFront total fuel [part] text groups fun rest groups =>
        if rest.length == text.length then none
        else matchFront total fuel (.star part :: parts) rest groups next
      more <|> goOn text groups

/-- The first match in a text: what stands before it, the match, what follows it, and the groups.
`before` is the text that was passed already, reversed. -/
def search (total : Nat) (expression : List Regex) : (before text : List Char) →
    Option (List Char × List Char × List Char × Groups)
  | before, text =>
    match matchFront total (64 * (text.length + expression.length + 8)) expression text []
        (fun rest groups => some (rest, groups)) with
    | some (rest, groups) =>
      some (before.reverse, text.take (text.length - rest.length), rest, groups)
    | none =>
      match text with
      | [] => none
      | c :: rest => search total expression (c :: before) rest

/-- The first match in a text. -/
def firstMatch? (expression : List Regex) (text : List Char) :
    Option (List Char × List Char × List Char × Groups) :=
  search text.length expression [] text

end Regex
end Shell
end DebugBridge
