import DebugBridge.Shell.Token
import DebugBridge.Text.Blank

/-!
Arithmetic of shell scripts, on integers.  A comparison has the value one if it holds and zero
otherwise; a variable that is no number counts as zero.
-/

namespace DebugBridge
namespace Shell
namespace Arithmetic

/-- Operators of two operands, looser ones first; those of one line bind alike. -/
def levels : List (List String) :=
  [["||"], ["&&"], ["|"], ["^"], ["&"], ["==", "!="], ["<=", ">=", "<", ">"], ["<<", ">>"],
    ["+", "-"], ["*", "/", "%"]]

/-- The value of a truth value. -/
def ofBool (value : Bool) : Int := if value then 1 else 0

/-- The value of an operator, if it has one. -/
def combine? (symbol : String) (left right : Int) : Option Int :=
  match symbol with
  | "||" => some (ofBool (left != 0 || right != 0))
  | "&&" => some (ofBool (left != 0 && right != 0))
  | "==" => some (ofBool (left == right))
  | "!=" => some (ofBool (left != right))
  | "<=" => some (ofBool (left ≤ right))
  | ">=" => some (ofBool (right ≤ left))
  | "<" => some (ofBool (left < right))
  | ">" => some (ofBool (right < left))
  | "|" => some (Int.ofNat (left.toNat ||| right.toNat))
  | "&" => some (Int.ofNat (left.toNat &&& right.toNat))
  | "^" => some (Int.ofNat (left.toNat ^^^ right.toNat))
  | "<<" => some (left * Int.pow 2 right.toNat)
  | ">>" => some (left / Int.pow 2 right.toNat)
  | "+" => some (left + right)
  | "-" => some (left - right)
  | "*" => some (left * right)
  | "/" => if right == 0 then none else some (left.tdiv right)
  | "%" => if right == 0 then none else some (left.tmod right)
  | _ => none

/-- The text without blanks at its front. -/
def skipBlanks (text : List Char) : List Char :=
  text.dropWhile fun c => c == ' ' || c == '\t' || c == '\n'

/-- An operator at the front of a text, unless a longer one is there. -/
def operatorAt? (symbols : List String) (text : List Char) : Option (String × List Char) := do
  let symbol ← symbols.find? fun symbol => symbol.toList.isPrefixOf text
  let rest := text.drop symbol.length
  let longer := ["||", "&&", "<<", ">>", "<=", ">="].any fun other =>
    other != symbol && symbol.toList.isPrefixOf other.toList && other.toList.isPrefixOf text
  if longer then none else some (symbol, rest)

mutual

/-- The value of an expression with operators of some levels. -/
def level : (fuel : Nat) → (String → Int) → List (List String) → List Char →
    Option (Int × List Char)
  | 0, _, _, _ => none
  | fuel + 1, variableValue, [], text => operand fuel variableValue (skipBlanks text)
  | fuel + 1, variableValue, symbols :: tighter, text => do
    let (first, rest) ← level fuel variableValue tighter text
    more fuel variableValue symbols tighter first rest

/-- What follows a first operand. -/
def more : (fuel : Nat) → (String → Int) → List String → List (List String) → Int → List Char →
    Option (Int × List Char)
  | 0, _, _, _, _, _ => none
  | fuel + 1, variableValue, symbols, tighter, left, text =>
    match operatorAt? symbols (skipBlanks text) with
    | none => some (left, text)
    | some (symbol, rest) => do
      let (right, rest) ← level fuel variableValue tighter rest
      more fuel variableValue symbols tighter (← combine? symbol left right) rest

/-- The value of a number, a variable, or an expression in parentheses, possibly with a sign. -/
def operand : (fuel : Nat) → (String → Int) → List Char → Option (Int × List Char)
  | 0, _, _ => none
  | fuel + 1, variableValue, text =>
    match text with
    | '-' :: rest => do
      let (value, rest) ← operand fuel variableValue (skipBlanks rest)
      return (-value, rest)
    | '+' :: rest => operand fuel variableValue (skipBlanks rest)
    | '!' :: rest => do
      let (value, rest) ← operand fuel variableValue (skipBlanks rest)
      return (ofBool (value == 0), rest)
    | '(' :: rest => do
      let (value, rest) ← level fuel variableValue levels rest
      match skipBlanks rest with
      | ')' :: rest => return (value, rest)
      | _ => none
    | text =>
      let name := text.takeWhile isNameChar
      match Text.decimal? name with
      | some value => some (value, text.dropWhile isNameChar)
      | none =>
        if isName name then
          some (variableValue (String.ofList name), text.dropWhile isNameChar)
        else none

end

/-- The value of an expression, the values of variables being given. -/
def evaluate? (variableValue : String → Int) (text : List Char) : Option Int := do
  if (skipBlanks text).isEmpty then return 0
  let (value, rest) ← level (20 * text.length + 40) variableValue levels text
  if (skipBlanks rest).isEmpty then some value else none

end Arithmetic
end Shell
end DebugBridge
