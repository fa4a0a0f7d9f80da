import DebugBridge.File.Path

/-!
Environment variables and the directories that they determine.
-/

namespace DebugBridge

/-- Environment variables with their values. -/
structure Environment where
  /-- Names and values; the first entry of a name counts. -/
  bindings : List (String × String)

namespace Environment

/-- The value of a variable. -/
def get? (environment : Environment) (name : String) : Option String :=
  (environment.bindings.find? fun entry => entry.1 == name).map Prod.snd

/-- The value of a variable if it is an absolute path. -/
def absolute? (environment : Environment) (name : String) : Option String :=
  (environment.get? name).filter Path.isAbsolute

/-- The home directory. -/
def home? (environment : Environment) : Option String :=
  (environment.get? "HOME").filter fun path => !path.isEmpty

/-- The directory for configuration files of programs. -/
def configDirectory? (environment : Environment) : Option String :=
  environment.absolute? "XDG_CONFIG_HOME" <|>
    environment.home?.map fun home => Path.join home ".config"

/-- The directory for data files of programs. -/
def dataDirectory? (environment : Environment) : Option String :=
  environment.absolute? "XDG_DATA_HOME" <|>
    environment.home?.map fun home => Path.join home ".local/share"

/-- The directory for temporary files. -/
def temporaryDirectory (environment : Environment) : String :=
  (environment.get? "TMPDIR").getD "/tmp"

end Environment
end DebugBridge
