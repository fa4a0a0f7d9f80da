import DebugBridge.Script.Node

/-!
The argument of an include directive: an optional comma, an optional mark that a missing file is
no error, and the target, which may be quoted.
-/

namespace DebugBridge
namespace Directive

/-- What stands between two equal quotes. -/
def unquoted? (quote : Char) (text : List Char) : Option (List Char) := do
  Text.beforeEnd [quote] (← Text.afterStart [quote] text)

/-- Reads the argument of an include directive. -/
def parse (argument : List Char) : Directive :=
  let text := Text.trim ((Text.trim argument).dropWhile (· == ','))
  let (ignoreFailure, text) :=
    match text with
    | '*' :: 'i' :: rest => (true, Text.trimStart rest)
    | '*' :: 'I' :: rest => (true, Text.trimStart rest)
    | text => (false, text)
  let target := (unquoted? '\x22' text <|> unquoted? '\x27' text).getD text
  { target := String.ofList target, ignoreFailure }

end Directive
end DebugBridge
