import DebugBridge.Config.Validation
import DebugBridge.Data.Toml.Document
import DebugBridge.File.Tree
import DebugBridge.Text.Utf8

/-!
Reading settings from documents and files.  A file's relative paths start at its directory.  The
project's file is the nearest one above a place.
-/

namespace DebugBridge

/-- Why settings cannot be had. -/
inductive ConfigError where
  /-- There is no such file. -/
  | notFound (path : String)
  /-- The document is no proper one, or a setting has the wrong type. -/
  | malformed
  /-- A setting is refused. -/
  | invalid (violation : Violation)
  /-- The file cannot be read as text. -/
  | unreadable (error : FileError)
  deriving DecidableEq, Repr

namespace ConfigError

/-- The error in words.  What exactly is wrong with a document is left open. -/
def message : ConfigError → String
  | .notFound path => "no debug configuration at " ++ path
  | .malformed => "cannot parse debug configuration: *"
  | .invalid violation => violation.message
  | .unreadable error => "cannot read debug configuration: " ++ error.message

/-- The error in words with what lies behind it. -/
def report : ConfigError → String
  | .unreadable error => ConfigError.message (.unreadable error) ++ ": " ++ error.message
  | error => error.message

end ConfigError

namespace DebugConfig

/-- The settings in a document, whatever they are. -/
def parse (text : List Char) : Except ConfigError DebugConfig :=
  match (Toml.parse? text).bind (ofValue? .toml) with
  | some config => .ok config
  | none => .error .malformed

/-- The settings if nothing is wrong with them, else the first violation. -/
def check (config : DebugConfig) : Except ConfigError DebugConfig :=
  match config.violations with
  | [] => .ok config
  | violation :: _ => .error (.invalid violation)

/-- The settings in a document. -/
def ofText (text : List Char) : Except ConfigError DebugConfig := do (← parse text).check

/-- A path that starts at a directory, unless it is absolute or empty. -/
def anchored (base path : String) : String :=
  if !path.isEmpty && !Path.isAbsolute path then Path.join base path else path

/-- The settings with their paths starting at a directory. -/
def anchor (config : DebugConfig) (base : String) : DebugConfig :=
  { config with
    program := anchored base config.program
    cwd := config.cwd.map (anchored base)
    breakpoints := config.breakpoints.map fun entry =>
      { entry with file := anchored base entry.file } }

/-- The settings in a file. -/
def load (files : FileTree) (path : String) : Except ConfigError DebugConfig := do
  if !files.names path then .error (.notFound path)
  let bytes ← (files.read path).mapError .unreadable
  let text ← (Text.utf8? bytes).mapError fun _ => .unreadable .notText
  let config ← parse text
  match Path.parent? path with
  | some base => (config.anchor base).check
  | none => config.check

/-- Name of a project's file. -/
def projectFileName : String := ".ahkdbg.toml"

/-- The nearest project file in one of some directories. -/
def firstProjectFile? (files : FileTree) : List String → Option String
  | [] => none
  | directory :: rest =>
    let candidate := Path.join directory projectFileName
    if files.isFile candidate then some candidate else firstProjectFile? files rest

/-- A directory and those above it. -/
def ancestors : Nat → String → List String
  | 0, directory => [directory]
  | fuel + 1, directory =>
    match Path.parent? directory with
    | some parent => directory :: ancestors fuel parent
    | none => [directory]

/-- The project file nearest to a place. -/
def findProjectFile? (files : FileTree) (start : String) : Option String :=
  firstProjectFile? files (ancestors start.length start)

end DebugConfig
end DebugBridge
