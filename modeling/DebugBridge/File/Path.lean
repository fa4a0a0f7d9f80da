import DebugBridge.Text.Blank

/-!
Paths as text.  A slash separates components; empty components and single dots after the first
component mean nothing and are passed over when a path is taken apart, but joining keeps every
path as it was written.
-/

namespace DebugBridge
namespace Path

/-- Whether a path starts at the root. -/
def isAbsolute (path : String) : Bool :=
  match path.toList with
  | '/' :: _ => true
  | _ => false

/-- A path below another one.  An absolute path replaces the base. -/
def join (base path : String) : String :=
  if isAbsolute path || base.isEmpty then path
  else if base.toList.getLast? == some '/' then base ++ path
  else base ++ "/" ++ path

/-- Whether a path begins with a single dot as its first component. -/
def startsAtDot (path : List Char) : Bool :=
  match path with
  | ['.'] => true
  | '.' :: '/' :: _ => true
  | _ => false

/-- A path cut into its beginning, a root or a single dot or nothing, and its body. -/
def splitBody (path : List Char) : List Char × List Char :=
  match path with
  | '/' :: body => (['/'], body)
  | path => if startsAtDot path then (['.'], path.drop 1) else ([], path)

/-- Whether a component means nothing. -/
def isIdle (component : List Char) : Bool := component.isEmpty || component == ['.']

/-- The reversed components of a body without the idle ones at its end. -/
def liveTail (reversed : List (List Char)) : List (List Char) := reversed.dropWhile isIdle

/-- Components put together again. -/
def joinSlash : List (List Char) → List Char
  | [] => []
  | [component] => component
  | component :: rest => component ++ '/' :: joinSlash rest

/-- The components of a body, the last one first, without the idle ones at its end. -/
def bodyTail (body : List Char) : List (List Char) :=
  liveTail (Text.splitAtChar '/' body).reverse

/-- The directory that holds what a path names; the root and the empty path have none. -/
def parent? (path : String) : Option String :=
  let (start, body) := splitBody path.toList
  match bodyTail body with
  | [] => if start == ['.'] then some "" else none
  | _ :: rest =>
    some (String.ofList (start ++ joinSlash (liveTail rest).reverse))

/-- The last component of a path, if it is a name. -/
def fileName? (path : String) : Option String :=
  match bodyTail (splitBody path.toList).2 with
  | [] => none
  | name :: _ => if name == ['.', '.'] then none else some (String.ofList name)

/-- The path with its last component, if that is a name, replaced. -/
def withFileName (path name : String) : String :=
  match fileName? path, parent? path with
  | some _, some directory => join directory name
  | _, _ => join path name

/-- A component of a path. -/
inductive Component where
  /-- The root. -/
  | root
  /-- The single dot that a path may begin with. -/
  | here
  /-- Two dots. -/
  | up
  /-- A name. -/
  | name (text : List Char)
  deriving DecidableEq, Repr

/-- The component that a part between slashes stands for, if it means anything. -/
def component? (part : List Char) : Option Component :=
  if isIdle part then none
  else if part == ['.', '.'] then some .up
  else some (.name part)

/-- The components of a path. -/
def components (path : String) : List Component :=
  let (start, body) := splitBody path.toList
  let first := if start == ['/'] then [.root] else if start == ['.'] then [.here] else []
  first ++ (Text.splitAtChar '/' body).filterMap component?

/-- Components of one kind come before those of the next; names are compared as texts. -/
def compareComponents : Component → Component → Ordering
  | .name a, .name b => compareOfLessAndEq a b
  | a, b => compare (rank a) (rank b)
where
  /-- The place of a kind of component among the others. -/
  rank : Component → Nat
    | .root => 0
    | .here => 1
    | .up => 2
    | .name _ => 3

/-- Lists of components are compared at the first place where they differ. -/
def compareAll : List Component → List Component → Ordering
  | [], [] => .eq
  | [], _ :: _ => .lt
  | _ :: _, [] => .gt
  | a :: as, b :: bs => (compareComponents a b).then (compareAll as bs)

/-- The order of paths by their components; paths with the same components are equal in it. -/
def order (a b : String) : Ordering := compareAll (components a) (components b)

/-- The path with backslashes turned into slashes. -/
def withSlashes (path : String) : String :=
  String.ofList (path.toList.map fun c => if c == '\\' then '/' else c)

/-- Whether a text starts with a drive letter and a colon. -/
def hasDrive (path : List Char) : Bool :=
  match path with
  | letter :: ':' :: _ => letter.isAlpha
  | _ => false

/-- Whether two paths name one file where separators and ASCII case do not count. -/
def sameFile (a b : String) : Bool :=
  let plain := fun path => (withSlashes path).toList.map Char.toLower
  plain a == plain b

end Path
end DebugBridge
