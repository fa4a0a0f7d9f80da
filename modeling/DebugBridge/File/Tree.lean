import DebugBridge.File.Path

/-!
A file tree as a value.  Entries are stored under their components from the root; a relative path
starts at the working directory.  Every operation either fails, leaving the tree alone, or gives
the changed tree.
-/

namespace DebugBridge

/-- Components of a place in a tree, from the root. -/
abbrev Place := List String

/-- What a tree holds at a place. -/
inductive Entry where
  /-- A file with its bytes. -/
  | file (bytes : List UInt8)
  /-- A directory. -/
  | directory
  deriving DecidableEq, Repr

/-- Files and directories, and the directory that relative paths start from. -/
structure FileTree where
  /-- What exists, the root directory apart. -/
  entries : List (Place × Entry)
  /-- Where relative paths start. -/
  workingPlace : Place

/-- Why an operation on a tree fails. -/
inductive FileError where
  /-- Nothing is there. -/
  | notFound
  /-- A file stands where a directory is needed. -/
  | notDirectory
  /-- A directory stands where a file is needed. -/
  | isDirectory
  /-- A directory that has to be empty is not. -/
  | notEmpty
  /-- The place is taken. -/
  | taken
  /-- The place is named by dots, and so cannot be moved. -/
  | busy
  /-- A name or a path has too many bytes. -/
  | tooLong
  /-- A path has a character that ends it for the system. -/
  | zeroCharacter
  /-- A file does not hold text. -/
  | notText
  deriving DecidableEq, Repr

namespace FileError

/-- A failure in words. -/
def wording : FileError → String
  | .notFound => "No such file or directory"
  | .notDirectory => "Not a directory"
  | .isDirectory => "Is a directory"
  | .notEmpty => "Directory not empty"
  | .taken => "File exists"
  | .busy => "Device or resource busy"
  | .tooLong => "File name too long"
  | .zeroCharacter => "file name contained an unexpected NUL byte"
  | .notText => "stream did not contain valid UTF-8"

/-- The number that the system gives a failure of its own. -/
def number? : FileError → Option Nat
  | .notFound => some 2
  | .notDirectory => some 20
  | .isDirectory => some 21
  | .notEmpty => some 39
  | .taken => some 17
  | .busy => some 16
  | .tooLong => some 36
  | .zeroCharacter | .notText => none

/-- A failure in words with its number. -/
def message (error : FileError) : String :=
  error.wording ++ (error.number?.elim "" fun number => " (os error " ++ toString number ++ ")")

end FileError

namespace FileTree

/-- The most bytes that a name may have. -/
def nameLimit : Nat := 255

/-- The most bytes that a path may have. -/
def pathLimit : Nat := 4095

/-- What a tree holds at a place. -/
def at? (tree : FileTree) (place : Place) : Option Entry :=
  if place.isEmpty then some .directory
  else (tree.entries.find? fun entry => entry.1 == place).map Prod.snd

/-- Follows components from a directory.  Only the last one may be missing. -/
def follow (tree : FileTree) (place : Place) : List String → Except FileError Place
  | [] => .ok place
  | component :: rest =>
    match tree.at? place with
    | none => .error .notFound
    | some (.file _) => .error .notDirectory
    | some .directory =>
      if component == "" || component == "." then tree.follow place rest
      else if component == ".." then tree.follow place.dropLast rest
      else if nameLimit < component.utf8ByteSize then .error .tooLong
      else tree.follow (place ++ [component]) rest

/-- The components of a path as they are written. -/
def components (path : String) : List String :=
  (Text.splitAtChar '/' path.toList).map String.ofList

/-- Whether a path ends in a name, slashes apart, and not in dots. -/
def endsInName (path : String) : Bool :=
  ((components path).reverse.find? (· != "")).any fun last => last != "." && last != ".."

/-- The place that a path names, whether or not something is there. -/
def locate (tree : FileTree) (path : String) : Except FileError Place :=
  if path.toList.contains '\x00' then .error .zeroCharacter
  else if path.isEmpty then .error .notFound
  else if pathLimit < path.utf8ByteSize then .error .tooLong
  else if Path.isAbsolute path then tree.follow [] (components path)
  else tree.follow tree.workingPlace (components path)

/-- What a path names, with its place. -/
def find (tree : FileTree) (path : String) : Except FileError (Place × Entry) := do
  let place ← tree.locate path
  match tree.at? place with
  | some entry => return (place, entry)
  | none => .error .notFound

/-- Whether a path names anything. -/
def names (tree : FileTree) (path : String) : Bool := (tree.find path).toOption.isSome

/-- Whether a path names a file. -/
def isFile (tree : FileTree) (path : String) : Bool :=
  match tree.find path with
  | .ok (_, .file _) => true
  | _ => false

/-- Whether a path names a directory. -/
def isDirectory (tree : FileTree) (path : String) : Bool :=
  match tree.find path with
  | .ok (_, .directory) => true
  | _ => false

/-- The bytes of the file that a path names. -/
def read (tree : FileTree) (path : String) : Except FileError (List UInt8) := do
  match ← tree.find path with
  | (_, .file bytes) => return bytes
  | (_, .directory) => .error .isDirectory

/-- The tree with one entry put at a place. -/
def put (tree : FileTree) (place : Place) (entry : Entry) : FileTree :=
  if tree.entries.any fun old => old.1 == place then
    { tree with
      entries := tree.entries.map fun old => if old.1 == place then (place, entry) else old }
  else { tree with entries := tree.entries ++ [(place, entry)] }

/-- The tree without what is at a place. -/
def erase (tree : FileTree) (place : Place) : FileTree :=
  { tree with entries := tree.entries.filter fun entry => entry.1 != place }

/-- The directory that would hold a place must exist. -/
def checkParent (tree : FileTree) (place : Place) : Except FileError Unit :=
  match tree.at? place.dropLast with
  | some .directory => .ok ()
  | some (.file _) => .error .notDirectory
  | none => .error .notFound

/-- Writes a file, over an older one if there is one. -/
def write (tree : FileTree) (path : String) (bytes : List UInt8) : Except FileError FileTree := do
  let place ← tree.locate path
  tree.checkParent place
  match tree.at? place with
  | some .directory => .error .isDirectory
  | _ => return tree.put place (.file bytes)

/-- Removes a file. -/
def remove (tree : FileTree) (path : String) : Except FileError FileTree := do
  match ← tree.find path with
  | (place, .file _) => return tree.erase place
  | (_, .directory) => .error .isDirectory

/-- Whether something lies below a place. -/
def hasBelow (tree : FileTree) (place : Place) : Bool :=
  tree.entries.any fun entry => place.isPrefixOf entry.1 && entry.1 != place

/-- A place below `source` moved below `target`. -/
def moved (source target place : Place) : Place :=
  if source.isPrefixOf place then target ++ place.drop source.length else place

/-- Renames a file or a directory, by its name and not by dots.  A file replaces a file, a
directory an empty directory. -/
def rename (tree : FileTree) (path target : String) : Except FileError FileTree := do
  let (source, entry) ← tree.find path
  let place ← tree.locate target
  tree.checkParent place
  if !endsInName path || !endsInName target then .error .busy
  if source == place then return tree
  match entry, tree.at? place with
  | .file _, some .directory => .error .isDirectory
  | .directory, some (.file _) => .error .notDirectory
  | .directory, some .directory => if tree.hasBelow place then .error .notEmpty
  | _, _ => pure ()
  let cleared := tree.erase place
  return { cleared with
    entries := cleared.entries.map fun old => (moved source place old.1, old.2) }

/-- Makes the directories named by components below a place, those that exist being kept. -/
def makeDirectoriesFrom (tree : FileTree) (place : Place) : List String → Except FileError FileTree
  | [] => .ok tree
  | component :: rest =>
    if component == "" || component == "." then tree.makeDirectoriesFrom place rest
    else if component == ".." then tree.makeDirectoriesFrom place.dropLast rest
    else
      let next := place ++ [component]
      match tree.at? next with
      | some .directory => tree.makeDirectoriesFrom next rest
      | some (.file _) => .error .notDirectory
      | none =>
        if nameLimit < component.utf8ByteSize then .error .tooLong
        else (tree.put next .directory).makeDirectoriesFrom next rest

/-- Makes a directory and those above it. -/
def makeDirectories (tree : FileTree) (path : String) : Except FileError FileTree :=
  let start := if Path.isAbsolute path then [] else tree.workingPlace
  if path.toList.contains '\x00' then .error .zeroCharacter
  else if pathLimit < path.utf8ByteSize then .error .tooLong
  else tree.makeDirectoriesFrom start (components path)

/-- What lies below the working directory, each with its components from there. -/
def listing (tree : FileTree) : List (Place × Entry) :=
  tree.entries.filterMap fun (place, entry) =>
    if tree.workingPlace.isPrefixOf place && place != tree.workingPlace then
      some (place.drop tree.workingPlace.length, entry)
    else none

end FileTree
end DebugBridge
