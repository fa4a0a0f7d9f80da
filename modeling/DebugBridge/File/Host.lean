import DebugBridge.File.Environment
import DebugBridge.File.Tree

/-!
What surrounds a program: its files and its environment.
-/

namespace DebugBridge

/-- Files and environment of a program. -/
structure Host where
  /-- The file tree. -/
  files : FileTree
  /-- The environment variables. -/
  environment : Environment

namespace Host

/-- The working directory as an absolute path. -/
def workingDirectory (host : Host) : String :=
  "/" ++ "/".intercalate host.files.workingPlace

/-- One name for every file: the absolute path of what a path names, or the path itself if it
names nothing. -/
def canonical (host : Host) (path : String) : String :=
  match host.files.find path with
  | .ok (place, _) => "/" ++ "/".intercalate place
  | .error _ => path

end Host
end DebugBridge
