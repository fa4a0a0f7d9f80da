import DebugBridge.File.Host
import DebugBridge.Script.Version
import DebugBridge.Text.Case

/-!
Resolution of include targets.  A target in angle brackets names a library file, which is looked
for in the library directories; any other target has the built-in variables between its percent
signs replaced and is then a path below the current base directory.
-/

namespace DebugBridge

/-- Why a script cannot be scanned or an include not be resolved. -/
inductive ScanError where
  /-- A file cannot be read. -/
  | unreadable (path : String)
  /-- An include target names nothing. -/
  | unresolved (target : String)
  /-- An include target uses a variable that is not built in. -/
  | unknownVariable (name : String)
  /-- A block that is never closed ends inside a character. -/
  | splitCharacter
  deriving DecidableEq, Repr

/-- The wording of a scan error. -/
def ScanError.message : ScanError → String
  | .unreadable path => "cannot read " ++ path
  | .unresolved target => "cannot resolve include `" ++ target ++ "`"
  | .unknownVariable name => "unknown built-in variable `" ++ name ++ "` in include path"
  | .splitCharacter => "a block ends inside a character"

/-- What the resolution of includes has to know about the running script. -/
structure IncludeContext where
  /-- Version of the language. -/
  version : Version
  /-- Path of the main script. -/
  scriptPath : String
  /-- Path of the interpreter, if known. -/
  runtimePath : Option String
  /-- Working directory of the script. -/
  workingDirectory : String
  /-- Library directory of the user. -/
  userLibrary : Option String
  deriving Repr

namespace IncludeContext

/-- The context of a script that runs in the working directory. -/
def forScript (host : Host) (script : String) (version : Version) : IncludeContext :=
  { version, scriptPath := script, runtimePath := none
    workingDirectory := host.workingDirectory, userLibrary := none }

/-- The directory that holds a file. -/
def directoryOf (path : String) : String := (Path.parent? path).getD "."

/-- The directory that holds the main script. -/
def scriptDirectory (context : IncludeContext) : String := directoryOf context.scriptPath

/-- Where relative includes of a file start before a directory include changes it. -/
def initialBase (context : IncludeContext) (file : String) : String :=
  match context.version with
  | .v1 => context.scriptDirectory
  | .v2 => directoryOf file

/-- Library directories in the order in which they are searched: local, user, standard. -/
def libraryDirectories (context : IncludeContext) : List String :=
  [Path.join context.scriptDirectory "Lib"] ++ context.userLibrary.toList ++
    ((context.runtimePath.bind Path.parent?).map fun directory => Path.join directory "Lib").toList

/-- The value of a built-in variable in a file, `name` being in lower case. -/
def builtinValue? (context : IncludeContext) (environment : Environment) (file name : String) :
    Option String :=
  let inConfig := fun part =>
    environment.configDirectory?.map fun directory => Path.join directory part
  match name with
  | "a_scriptdir" => some context.scriptDirectory
  | "a_scriptfullpath" => some context.scriptPath
  | "a_scriptname" => Path.fileName? context.scriptPath
  | "a_linefile" => some file
  | "a_workingdir" => some context.workingDirectory
  | "a_ahkpath" => context.runtimePath
  | "a_appdata" => environment.configDirectory?
  | "a_appdatacommon" => environment.get? "ProgramData"
  | "a_mydocuments" => none
  | "a_desktop" => none
  | "a_temp" => some environment.temporaryDirectory
  | "a_username" => environment.get? "USERNAME" <|> environment.get? "USER"
  | "a_computername" => environment.get? "COMPUTERNAME" <|> environment.get? "HOSTNAME"
  | "a_windir" => environment.get? "WINDIR" <|> environment.get? "SystemRoot"
  | "a_programfiles" => environment.get? "ProgramFiles"
  | "a_comspec" => environment.get? "ComSpec"
  | "a_startup" => inConfig "Microsoft\\Windows\\Start Menu\\Programs\\Startup"
  | "a_startmenu" => inConfig "Microsoft\\Windows\\Start Menu"
  | "a_programs" => inConfig "Microsoft\\Windows\\Start Menu\\Programs"
  | "a_iscompiled" => some ""
  | "a_space" => some " "
  | "a_tab" => some "\t"
  | _ => none

/-- The value of a built-in variable in a file; ASCII case does not count in its name. -/
def builtinVariable? (context : IncludeContext) (environment : Environment)
    (file name : String) : Option String :=
  context.builtinValue? environment file (Text.lowered name)

/-- Puts values in the place of the names in a text that was cut at its percent signs: literal
text and names alternate, and a last sign without a partner is literal. -/
def substituteParts (value? : String → Option String) :
    List (List Char) → Except ScanError (List Char)
  | [] => .ok []
  | [text] => .ok text
  | [text, tail] => .ok (text ++ '%' :: tail)
  | text :: name :: rest =>
    match value? (String.ofList name) with
    | none => .error (.unknownVariable (String.ofList name))
    | some value => do
      let rest ← substituteParts value? rest
      return text ++ value.toList ++ rest

/-- A target with the built-in variables between its percent signs replaced. -/
def substitute (context : IncludeContext) (environment : Environment) (file target : String) :
    Except ScanError String := do
  let parts := Text.splitAtChar '%' target.toList
  return String.ofList (← substituteParts (context.builtinVariable? environment file) parts)

/-- Names under which a library is looked for.  In version 1 a name also stands for the library
named by what precedes its first underscore. -/
def libraryNames (context : IncludeContext) (name : List Char) : List (List Char) :=
  match context.version, Text.splitOnce '_' name with
  | .v1, some (start, _) => if start.isEmpty then [name] else [name, start]
  | _, _ => [name]

/-- The file of a library. -/
def library? (context : IncludeContext) (host : Host) (name : List Char) : Option String :=
  (context.libraryNames name).findSome? fun candidate =>
    context.libraryDirectories.findSome? fun directory =>
      let file := Path.join directory (String.ofList (candidate ++ ".ahk".toList))
      if host.files.isFile file then some file else none

/-- The name between angle brackets. -/
def bracketed? (target : List Char) : Option (List Char) := do
  Text.beforeEnd ['>'] (← Text.afterStart ['<'] target)

/-- The existing file or directory that an include target in `file` names, `base` being the
directory that relative paths start from. -/
def resolve (context : IncludeContext) (host : Host) (file base target : String) :
    Except ScanError String :=
  match bracketed? target.toList with
  | some name =>
    match context.library? host (Text.trim name) with
    | some path => .ok path
    | none => .error (.unresolved target)
  | none => do
    let path := Path.withSlashes (← context.substitute host.environment file target)
    let candidate :=
      if Path.isAbsolute path || Path.hasDrive path.toList then path else Path.join base path
    if host.files.names candidate then return candidate else .error (.unresolved target)

end IncludeContext
end DebugBridge
