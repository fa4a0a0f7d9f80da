import DebugBridge.Script.Include
import DebugBridge.Proofs.Text.Blank

/-!
# Variables in include targets

The percent signs of a target cut it into literal text and names by turns, in exactly one way; a
last sign without a partner is literal.  Values stand in the place of the names, whatever signs they
have themselves, and the first name that has no value is what is wrong with the target.
-/

namespace DebugBridge

/-- A target as its percent signs cut it. -/
inductive IncludeTarget where
  /-- Text without a sign. -/
  | plain (literal : List Char)
  /-- Text, the only sign, and what follows it. -/
  | unpaired (literal tail : List Char)
  /-- Text, a name between two signs, and the rest. -/
  | named (literal name : List Char) (rest : IncludeTarget)

namespace IncludeTarget

/-- The target that is cut so. -/
def text : IncludeTarget → List Char
  | .plain literal => literal
  | .unpaired literal tail => literal ++ '%' :: tail
  | .named literal name rest => literal ++ '%' :: (name ++ '%' :: rest.text)

/-- No sign is left within a part. -/
def Clean : IncludeTarget → Prop
  | .plain literal => '%' ∉ literal
  | .unpaired literal tail => '%' ∉ literal ∧ '%' ∉ tail
  | .named literal name rest => '%' ∉ literal ∧ '%' ∉ name ∧ rest.Clean

instance decidableClean : (target : IncludeTarget) → Decidable target.Clean
  | .plain literal => inferInstanceAs (Decidable ('%' ∉ literal))
  | .unpaired literal tail => inferInstanceAs (Decidable ('%' ∉ literal ∧ '%' ∉ tail))
  | .named literal name rest =>
    have := decidableClean rest
    inferInstanceAs (Decidable ('%' ∉ literal ∧ '%' ∉ name ∧ rest.Clean))

/-- The names, in order. -/
def names : IncludeTarget → List String
  | .named _ name rest => String.ofList name :: rest.names
  | _ => []

/-- The target with values in the place of the names. -/
def filled (value : String → String) : IncludeTarget → List Char
  | .plain literal => literal
  | .unpaired literal tail => literal ++ '%' :: tail
  | .named literal name rest =>
    literal ++ (value (String.ofList name)).toList ++ rest.filled value

/-- The parts between the signs. -/
def parts : IncludeTarget → List (List Char)
  | .plain literal => [literal]
  | .unpaired literal tail => [literal, tail]
  | .named literal name rest => literal :: name :: rest.parts

/-! ## One way to cut -/

end IncludeTarget

namespace IncludeContext

open IncludeTarget

/-! ## What is put in -/

section Parts

variable {value? : String → Option String}

end Parts

variable {context : IncludeContext} {environment : Environment} {file target : String}

end IncludeContext
end DebugBridge
