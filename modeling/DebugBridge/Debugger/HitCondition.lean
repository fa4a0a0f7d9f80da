import DebugBridge.Debugger.Error

/-!
Conditions on the number of hits of a breakpoint.  They are written as an operator and a number of
at least one; without an operator, "at least" is meant.
-/

namespace DebugBridge

/-- How the number of hits is compared. -/
inductive HitOperator where
  /-- From that hit on. -/
  | atLeast
  /-- On that hit only. -/
  | equal
  /-- On every multiple. -/
  | multiple
  deriving DecidableEq, Repr

/-- How an operator is written. -/
def HitOperator.symbol : HitOperator → String
  | .atLeast => ">="
  | .equal => "=="
  | .multiple => "%"

/-- A condition on the number of hits. -/
structure HitCondition where
  /-- The number compared with. -/
  value : Nat
  /-- How the hits are compared with it. -/
  operator : HitOperator
  deriving DecidableEq, Repr

namespace HitCondition

/-- Whether a breakpoint with the condition stops the script on a hit, the first being number
one. -/
def holds (condition : HitCondition) (hits : Nat) : Bool :=
  match condition.operator with
  | .atLeast => condition.value ≤ hits
  | .equal => hits == condition.value
  | .multiple => hits % condition.value == 0

/-- The condition in its usual form. -/
def render (condition : HitCondition) : String :=
  condition.operator.symbol ++ " " ++ toString condition.value

/-- The operator at the front of a text, what has to be added to the number, and the rest. -/
def splitOperator : List Char → HitOperator × Nat × List Char
  | '>' :: '=' :: rest => (.atLeast, 0, rest)
  | '>' :: rest => (.atLeast, 1, rest)
  | '=' :: '=' :: rest => (.equal, 0, rest)
  | '=' :: rest => (.equal, 0, rest)
  | '%' :: rest => (.multiple, 0, rest)
  | rest => (.atLeast, 0, rest)

/-- The condition that a text without blanks around it stands for. -/
def ofTrimmed? (text : List Char) : Option HitCondition := do
  let (operator, offset, rest) := splitOperator text
  let number ← Text.bounded? Text.maxWord (Text.trim rest)
  let value := number + offset
  if value = 0 || Text.maxWord < value then none else some { value, operator }

/-- The condition that a text stands for; a blank one stands for none. -/
def parse (text : String) : Except DebugError (Option HitCondition) :=
  let trimmed := Text.trim text.toList
  if trimmed.isEmpty then .ok none
  else
    match ofTrimmed? trimmed with
    | some condition => .ok (some condition)
    | none => .error (.hitCondition (String.ofList trimmed))

end HitCondition
end DebugBridge
