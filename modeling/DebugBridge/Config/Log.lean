import DebugBridge.Config.Basic
import DebugBridge.File.Environment
import DebugBridge.File.Tree
import DebugBridge.Text.Case

/-!
The log file: where it is, how its level is named, and how it makes room for a new one by becoming
the first of a number of backups, each of which moves on by one.
-/

namespace DebugBridge
namespace Log

/-- The usual place of the log file. -/
def defaultPath (environment : Environment) : String :=
  let directory := match environment.dataDirectory? with
    | some data => Path.join (Path.join data "ahkdbg") "logs"
    | none => Path.join environment.temporaryDirectory "ahkdbg"
  Path.join directory "ahkdbg.log"

/-- The level that a text names; any other text stands for the usual level. -/
def levelNamed (text : String) : LogLevel :=
  match String.ofList (Text.asciiLower (Text.trim text.toList)) with
  | "trace" => .trace
  | "debug" => .debug
  | "warn" | "warning" => .warn
  | "error" => .error
  | _ => .info

/-- Makes the directory of a log file. -/
def makeDirectory (files : FileTree) (path : String) : Except FileError FileTree :=
  match Path.parent? path with
  | some parent => if parent.isEmpty then .ok files else files.makeDirectories parent
  | none => .ok files

/-- The backup of a log file with a number. -/
def backup (path : String) (number : Nat) : String :=
  Path.withFileName path ((Path.fileName? path).getD "" ++ "." ++ toString number)

/-- The size that is reported for a directory. -/
def directorySize : Nat := 4096

/-- The size of what a path names. -/
def sizeOf (files : FileTree) (path : String) : Except FileError Nat := do
  match ← files.find path with
  | (_, .file bytes) => return bytes.length
  | (_, .directory) => return directorySize

/-- Goes on with a changed tree, or stops with the old one and an error. -/
def orStop (files : FileTree) (result : Except FileError FileTree)
    (next : FileTree → FileTree × Option FileError) : FileTree × Option FileError :=
  match result with
  | .ok changed => next changed
  | .error error => (files, some error)

/-- Moves the backups with numbers from `count` down to one on by one, and then the log file, which
becomes the first of them. -/
def shift (files : FileTree) (path : String) : Nat → FileTree × Option FileError
  | 0 => orStop files (files.rename path (backup path 1)) fun files => (files, none)
  | count + 1 =>
    let older := backup path (count + 1)
    let result :=
      if files.names older then files.rename older (backup path (count + 2)) else .ok files
    orStop files result fun files => shift files path count

/-- Removes a file if it is there. -/
def removeIfThere (files : FileTree) (path : String) : Except FileError FileTree :=
  match files.remove path with
  | .error .notFound => .ok files
  | result => result

/-- Makes the log file its first backup once it has at least `maxSize` bytes, keeping `maxFiles`
backups.  An error stops it half way. -/
def rotate (files : FileTree) (path : String) (maxSize maxFiles : Nat) :
    FileTree × Option FileError :=
  match sizeOf files path with
  | .error .notFound => (files, none)
  | .error error => (files, some error)
  | .ok size =>
    if size < maxSize then (files, none)
    else
      orStop files (removeIfThere files (backup path maxFiles)) fun files =>
        shift files path (maxFiles - 1)

end Log
end DebugBridge
