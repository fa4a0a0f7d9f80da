import DebugBridge.Script.Include
import DebugBridge.Script.Scan

/-!
A script with the files that it includes.  The outline of a file is scanned on its own; then its
include directives are resolved in document order, each possibly entering another file.  A
directory include moves the base of the later includes of its file, and no file is entered twice.
-/

namespace DebugBridge

/-- A file that was scanned on its own. -/
structure ScannedFile where
  /-- The file. -/
  source : Source
  /-- Its nodes, includes being resolved but not entered. -/
  nodes : List Node

/-- Where the resolution of includes has come to. -/
structure Walk where
  /-- Canonical names of the files that were entered. -/
  visited : List String
  /-- Where relative includes of the current file start. -/
  base : String

/-- How includes are resolved and entered. -/
structure Follower where
  /-- The path that a target names from a base. -/
  resolve? : (base target : String) → Option String
  /-- Whether a path names a directory. -/
  isDirectory : String → Bool
  /-- The nodes of an included file under a scope, and the files entered since. -/
  enter : (visited : List String) → (path : String) → (scope : List String) → (inClass : Bool) →
    Option (List Node × List String)

mutual

/-- A node with the includes in it resolved; `inClass` says whether it stands in a class body. -/
def Node.link (follower : Follower) (inClass : Bool) (walk : Walk) :
    Node → Option (Node × Walk)
  | .mk kind scope location nested =>
    match kind with
    | .inclusion directive again _ =>
      match follower.resolve? walk.base directive.target with
      | none => some (.mk (.inclusion directive again none) scope location [], walk)
      | some path =>
        let kind := .inclusion directive again (some path)
        if follower.isDirectory path then
          some (.mk kind scope location [], { walk with base := path })
        else do
          let (nodes, visited) ← follower.enter walk.visited path scope inClass
          return (.mk kind scope location nodes, { walk with visited })
    | kind => do
      let (nested, walk) ← Node.linkAll follower kind.isClass walk nested
      return (.mk kind scope location nested, walk)

/-- Nodes with the includes in them resolved, in document order. -/
def Node.linkAll (follower : Follower) (inClass : Bool) (walk : Walk) :
    List Node → Option (List Node × Walk)
  | [] => some ([], walk)
  | node :: rest => do
    let (node, walk) ← Node.link follower inClass walk node
    let (rest, walk) ← Node.linkAll follower inClass walk rest
    return (node :: rest, walk)

end

namespace IncludeContext

/-- The text of a script file, without a byte order mark. -/
def readScript (host : Host) (path : String) : Except ScanError (List Char) :=
  match host.files.read path with
  | .error _ => .error (.unreadable path)
  | .ok (0xEF :: 0xBB :: 0xBF :: bytes) => .ok (Text.utf8Lossy bytes)
  | .ok bytes => .ok (Text.utf8Lossy bytes)

/-- How the includes of a file are resolved, given how files are entered. -/
def follower (context : IncludeContext) (host : Host) (file : String)
    (enter : List String → String → List String → Bool → Option (List Node × List String)) :
    Follower :=
  { resolve? := fun base target => (context.resolve host file base target).toOption
    isDirectory := host.files.isDirectory
    enter }

/-- The nodes of a text under a scope, with its includes resolved. -/
def scanText (context : IncludeContext) (host : Host)
    (enter : List String → String → List String → Bool → Option (List Node × List String))
    (visited : List String) (path : String) (text : List Char) (scope : List String)
    (inClass : Bool) : Option (Source × List Node × List String) := do
  let source := Source.ofText context.version path text
  let outline ← source.scan? 0 source.size scope inClass
  let walk := { visited, base := context.initialBase path }
  let (nodes, walk) ← Node.linkAll (context.follower host path enter) inClass walk outline
  return (source, nodes, walk.visited)

/-- Enters no file. -/
def stay (visited : List String) (_path : String) (_scope : List String) (_inClass : Bool) :
    Option (List Node × List String) :=
  some ([], visited)

/-- Enters an included file that was not entered before, through at most `depth` nested includes. -/
def enter (context : IncludeContext) (host : Host) :
    (depth : Nat) → (visited : List String) → (path : String) → (scope : List String) →
      (inClass : Bool) → Option (List Node × List String)
  | 0, visited, _, _, _ => some ([], visited)
  | depth + 1, visited, path, scope, inClass =>
    let name := host.canonical path
    if visited.contains name then some ([], visited)
    else
      match readScript host path with
      | .error _ => some ([], name :: visited)
      | .ok text => do
        let (_, nodes, visited) ←
          context.scanText host (context.enter host depth) (name :: visited) path text scope inClass
        return (nodes, visited)

/-- The nodes of a text and of every file that it includes.  No more includes can be nested than
there are files. -/
def findInSource (context : IncludeContext) (host : Host) (path : String) (text : List Char) :
    Except ScanError (List Node) :=
  let depth := host.files.entries.length + 1
  let enter := context.enter host depth
  match context.scanText host enter [host.canonical path] path text [] false with
  | some (_, nodes, _) => .ok nodes
  | none => .error .splitCharacter

/-- The nodes of a script and of every file that it includes. -/
def findProgram (context : IncludeContext) (host : Host) (path : String) :
    Except ScanError (List Node) := do
  context.findInSource host path (← readScript host path)

/-- A text scanned on its own. -/
def scanSource (context : IncludeContext) (host : Host) (path : String) (text : List Char) :
    Except ScanError ScannedFile :=
  match context.scanText host stay [] path text [] false with
  | some (source, nodes, _) => .ok { source, nodes }
  | none => .error .splitCharacter

/-- A file scanned on its own. -/
def scanFile (context : IncludeContext) (host : Host) (path : String) :
    Except ScanError ScannedFile := do
  context.scanSource host path (← readScript host path)

end IncludeContext
end DebugBridge
