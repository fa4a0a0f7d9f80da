import DebugBridge.Config.Basic
import DebugBridge.Debugger.Talk

/-!
What an engine says about itself when it is connected, and what it is told about the size of data.
-/

namespace DebugBridge

/-- What an engine says about itself. -/
structure EngineFeatures where
  /-- Whether it reads interrupts while the script runs. -/
  supportsAsync : Bool
  /-- Version of the language. -/
  languageVersion : Option String
  /-- The types of breakpoints that it knows. -/
  breakpointTypes : List String
  deriving DecidableEq, Repr

namespace EngineFeatures

/-- An engine that has said nothing. -/
def unknown : EngineFeatures :=
  { supportsAsync := false, languageVersion := none, breakpointTypes := [] }

/-- The value of a feature, if the engine has it. -/
def featureValue? (name : String) : Operation σ (Option String) := do
  match ← Operation.attempt ((Command.named "feature_get").arg 'n' name) with
  | .ok response => return response.featureValue?
  | .error _ => return none

/-- Asks an engine what it can do. -/
def query : Operation σ EngineFeatures := do
  let async ← featureValue? "supports_async"
  let languageVersion ← featureValue? "language_version"
  let types ← featureValue? "breakpoint_types"
  return { supportsAsync := async.any fun value => Text.trimmed value == "1"
           languageVersion
           breakpointTypes := ((types.getD "").toList |> Text.words).map String.ofList }

/-- Whether a type of breakpoints can be used; an engine that lists none knows all. -/
def supportsBreakpointType (features : EngineFeatures) (kind : String) : Bool :=
  features.breakpointTypes.isEmpty || features.breakpointTypes.contains kind

/-- The major version of the language, if it can be told. -/
def version? (features : EngineFeatures) : Option Version := do
  let text := Text.trim (← features.languageVersion).toList
  let number := (text.dropWhile fun c => c == 'v' || c == 'V').takeWhile (· != '.')
  return Version.ofMajor (← Text.bounded? Text.maxByte number)

end EngineFeatures

/-- The commands that tell an engine how much data is wanted. -/
def DebugConfig.featureCommands (config : DebugConfig) : List Command :=
  [("max_children", config.maxChildren), ("max_depth", config.maxDepth),
    ("max_data", config.maxData)].map fun (name, value) =>
      ((Command.named "feature_set").arg 'n' name).argNat 'v' value

end DebugBridge
