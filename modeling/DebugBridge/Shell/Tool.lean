import DebugBridge.Shell.Format
import DebugBridge.Shell.State
import DebugBridge.Shell.StreamEdit
import DebugBridge.Text.Blank

/-!
The programs that scripts use.  Each reads and writes through descriptors and gives an exit code.
-/

namespace DebugBridge
namespace Shell
namespace Tool

open Run

/-- A text between quotes. -/
def quoted (text : String) : String := "'" ++ text ++ "'"

/-- The bytes of a file; a single dash stands for the standard input. -/
def contents (path : String) : Run (Except FileError (List UInt8)) := do
  if path == "-" || path == "/dev/stdin" then return .ok (← readAll 0)
  else if path == "/dev/null" then return .ok []
  else return (← get).files.read path

/-- Does something with each of some paths; the exit code is one if that fails for some. -/
def forAll (paths : List String) (act : String → Run (Except String Unit)) : Run Nat :=
  match paths with
  | [] => return 0
  | path :: rest => do
    match ← act path with
    | .ok () => forAll rest act
    | .error text =>
      let _ ← complain text 1
      let _ ← forAll rest act
      return 1

/-- A change of files, or a complaint. -/
def change (complaint : String) (f : FileTree → Except FileError FileTree) :
    Run (Except String Unit) := do
  match f (← get).files with
  | .ok files =>
    setFiles files
    return .ok ()
  | .error error => return .error (complaint ++ ": " ++ error.wording)

/-- Arguments that start with a dash, and the others. -/
def splitFlags : List String → List Char × List String
  | [] => ([], [])
  | argument :: rest =>
    match argument.toList with
    | ['-', '-'] => ([], rest)
    | '-' :: flag :: flags =>
      let (others, rest) := splitFlags rest
      (flag :: flags ++ others, rest)
    | _ => ([], argument :: rest)

/-- Prints files one after another. -/
def cat (paths : List String) : Run Nat :=
  forAll (if paths.isEmpty then ["-"] else paths) fun path => do
    match ← contents path with
    | .ok bytes =>
      write 1 bytes
      return .ok ()
    | .error error => return .error ("cat: " ++ path ++ ": " ++ error.wording)

/-- Prints its arguments. -/
def echo (arguments : List String) : Run Nat := do
  let silent := arguments.head? == some "-n"
  let words := if silent then arguments.drop 1 else arguments
  let (bytes, goesOn) := unescaped true (" ".intercalate words)
  write 1 (bytes ++ if silent || !goesOn then [] else [10])
  return 0

/-- Prints its arguments as a format says. -/
def printf (arguments : List String) : Run Nat := do
  match (if arguments.head? == some "--" then arguments.drop 1 else arguments) with
  | [] => complain "printf: usage: printf format [arg ...]" 2
  | format :: arguments =>
    write 1 (formatAll (arguments.length + 1) format arguments)
    return 0

/-- A length of time in microseconds. -/
def duration? (text : String) : Option Nat := do
  let unit := match text.toList.getLast? with
    | some 'm' => 60
    | some 'h' => 3600
    | some 'd' => 86400
    | _ => 1
  let digits := Text.dropEndWhile (fun c => "smhd".toList.contains c) text.toList
  let whole := digits.takeWhile Text.isDigit
  let part := (digits.drop whole.length).drop 1
  if (digits.drop whole.length).headD '.' != '.' || !part.all Text.isDigit ||
      (whole.isEmpty && part.isEmpty) then none
  else
    let micro := (part ++ List.replicate 6 '0').take 6
    return (Text.digitsValue whole * 1000000 + Text.digitsValue micro) * unit

/-- Lets time pass. -/
def sleep (arguments : List String) : Run Nat := do
  match arguments.mapM duration? with
  | some (first :: rest) =>
    spend (rest.foldl (· + ·) first)
    return 0
  | some [] => complain "sleep: missing operand\nTry 'sleep --help' for more information." 1
  | none =>
    let wrong := (arguments.find? fun text => (duration? text).isNone).getD ""
    complain ("sleep: invalid time interval " ++ quoted wrong ++
      "\nTry 'sleep --help' for more information.") 1

/-- The path below a directory with the name of another one. -/
def below (directory path : String) : String :=
  Path.join directory ((Path.fileName? path).getD path)

/-- Where a file goes: a directory takes it under its own name. -/
def destination (files : FileTree) (path target : String) : String :=
  if files.isDirectory target then below target path else target

/-- Moves files. -/
def mv (arguments : List String) : Run Nat := do
  let paths := (splitFlags arguments).2
  match paths.getLast? with
  | some target =>
    if paths.length < 2 then
      complain ("mv: missing destination file operand after " ++ quoted target ++
        "\nTry 'mv --help' for more information.") 1
    else
      forAll paths.dropLast fun path => do
        let files := (← get).files
        if !files.names path then
          return .error ("mv: cannot stat " ++ quoted path ++ ": " ++ FileError.notFound.wording)
        else
          let place := destination files path target
          change ("mv: cannot move " ++ quoted path ++ " to " ++ quoted place)
            fun files => files.rename path place
  | none => complain "mv: missing file operand\nTry 'mv --help' for more information." 1

/-- Copies files. -/
def cp (arguments : List String) : Run Nat := do
  let paths := (splitFlags arguments).2
  let target := paths.getLast?.getD ""
  forAll paths.dropLast fun path => do
    match (← get).files.read path with
    | .ok bytes =>
      change ("cp: cannot create regular file " ++ quoted target)
        (fun files => files.write (destination files path target) bytes)
    | .error error => return .error ("cp: cannot stat " ++ quoted path ++ ": " ++ error.wording)

/-- The tree without a directory and what is below it. -/
def removeTree (files : FileTree) (path : String) : Except FileError FileTree := do
  let (place, _) ← files.find path
  return { files with entries := files.entries.filter fun entry => !place.isPrefixOf entry.1 }

/-- Removes files, and directories if that is wanted. -/
def rm (arguments : List String) : Run Nat := do
  let (flags, paths) := splitFlags arguments
  let force := flags.contains 'f'
  let whole := flags.contains 'r' || flags.contains 'R'
  forAll paths fun path => do
    if force && !(← get).files.names path then return .ok ()
    else change ("rm: cannot remove " ++ quoted path) fun files =>
      if whole then removeTree files path else files.remove path

/-- Makes files, those that exist being kept. -/
def touch (arguments : List String) : Run Nat :=
  forAll (splitFlags arguments).2 fun path => do
    if (← get).files.names path then return .ok ()
    else change ("touch: cannot touch " ++ quoted path) fun files => files.write path []

/-- Makes directories, those above them too if that is wanted. -/
def mkdir (arguments : List String) : Run Nat := do
  let (flags, paths) := splitFlags arguments
  forAll paths fun path =>
    change ("mkdir: cannot create directory " ++ quoted path) fun files => do
      if flags.contains 'p' then files.makeDirectories path
      else
        let place ← files.locate path
        files.checkParent place
        if (files.at? place).isSome then .error .taken else .ok (files.put place .directory)

/-- Removes empty directories. -/
def rmdir (arguments : List String) : Run Nat :=
  forAll (splitFlags arguments).2 fun path =>
    change ("rmdir: failed to remove " ++ quoted path) fun files => do
      let (place, entry) ← files.find path
      if entry != .directory then .error .notDirectory
      else if files.hasBelow place then .error .notEmpty
      else .ok (files.erase place)

/-- The names in a directory, in order, without those that start with a dot. -/
def namesIn (files : FileTree) (place : Place) : List String :=
  let names := files.entries.filterMap fun (other, _) =>
    if place.isPrefixOf other && other.length == place.length + 1 then other.getLast? else none
  (names.filter fun name => name.toList.head? != some '.').mergeSort fun a b => a ≤ b

/-- Prints the names in directories. -/
def ls (arguments : List String) : Run Nat := do
  let paths := (splitFlags arguments).2
  forAll (if paths.isEmpty then ["."] else paths) fun path => do
    let files := (← get).files
    match files.find path with
    | .ok (place, .directory) =>
      writeText 1 (String.join ((namesIn files place).map (· ++ "\n")))
      return .ok ()
    | .ok (_, .file _) =>
      writeText 1 (path ++ "\n")
      return .ok ()
    | .error error => return .error ("ls: cannot access " ++ quoted path ++ ": " ++ error.wording)

/-- Bytes cut at line ends; text after the last one is a line of its own. -/
def linesOf (bytes : List UInt8) : List (List Char) :=
  let lines := Text.splitAtChar '\n' (Text.utf8Lossy bytes)
  if lines.getLast? == some [] then lines.dropLast else lines

/-- Prints lines. -/
def printLines (lines : List (List Char)) : Run Unit :=
  write 1 (Text.utf8 (lines.flatMap fun line => line ++ ['\n']))

/-- The bytes of some files one after another, or of the standard input. -/
def allContents (paths : List String) : Run (List UInt8) := do
  let mut all := []
  for path in (if paths.isEmpty then ["-"] else paths) do
    match ← contents path with
    | .ok bytes => all := all ++ bytes
    | .error _ => pure ()
  return all

/-- Edits lines by a script. -/
def sed (arguments : List String) : Run Nat := do
  let quiet := arguments.contains "-n"
  let others := arguments.filter fun argument => argument != "-n" && argument != "-e"
  match others with
  | [] => complain "Usage: sed [OPTION]... \x7bscript-only-if-no-other-script\x7d [input-file]..." 1
  | script :: paths =>
    match StreamEdit.ofText? script with
    | none => complain "sed: -e expression #1, char 1: unknown command" 1
    | some edits =>
      printLines (StreamEdit.run edits quiet 1 (linesOf (← allContents paths)))
      return 0

/-- Prints lines that match an expression. -/
def grep (arguments : List String) : Run Nat := do
  let (flags, others) := splitFlags arguments
  match others with
  | [] => complain "Usage: grep [OPTION]... PATTERNS [FILE]..." 2
  | expression :: paths =>
    let expression := if flags.contains 'F'
      then expression.toList.map fun c => Regex.item (.char c)
      else Regex.ofText expression.toList
    let found := (linesOf (← allContents paths)).filter fun line =>
      (Regex.firstMatch? expression line).isSome != flags.contains 'v'
    if flags.contains 'c' then writeText 1 (toString found.length ++ "\n")
    else if !flags.contains 'q' then printLines found
    return if found.isEmpty then 1 else 0

/-- The number of lines that an argument asks for, and the paths. -/
def lineCount (arguments : List String) : Nat × List String :=
  match arguments with
  | "-n" :: count :: paths => ((Text.decimal? count.toList).getD 10, paths)
  | first :: paths =>
    match first.toList with
    | '-' :: 'n' :: digits => ((Text.decimal? digits).getD 10, paths)
    | '-' :: digits => ((Text.decimal? digits).getD 10, paths)
    | _ => (10, first :: paths)
  | [] => (10, [])

/-- Prints the first lines. -/
def head (arguments : List String) : Run Nat := do
  let (count, paths) := lineCount arguments
  printLines ((linesOf (← allContents paths)).take count)
  return 0

/-- Prints the last lines. -/
def tail (arguments : List String) : Run Nat := do
  let (count, paths) := lineCount arguments
  let lines := linesOf (← allContents paths)
  printLines (lines.drop (lines.length - count))
  return 0

/-- Counts lines, words or bytes. -/
def wc (arguments : List String) : Run Nat := do
  let (flags, paths) := splitFlags arguments
  let bytes ← allContents paths
  let lines := (bytes.filter (· == 10)).length
  let words := (Text.words (Text.utf8Lossy bytes)).length
  let counts := if flags.contains 'l' then [lines] else if flags.contains 'w' then [words]
    else if flags.contains 'c' then [bytes.length] else [lines, words, bytes.length]
  writeText 1 (" ".intercalate (counts.map toString ++ paths) ++ "\n")
  return 0

/-- Prints numbers in order. -/
def seq (arguments : List String) : Run Nat := do
  let (first, last) := match arguments.filterMap fun a => Text.decimal? a.toList with
    | [last] => (1, last)
    | first :: last :: _ => (first, last)
    | [] => (1, 0)
  writeText 1 (String.join ((List.range' first (last + 1 - first)).map fun n => toString n ++ "\n"))
  return 0

/-- The characters of a set, ranges being written out. -/
def characterSet : List Char → List Char
  | '\\' :: 'n' :: rest => '\n' :: characterSet rest
  | '\\' :: 'r' :: rest => '\r' :: characterSet rest
  | '\\' :: 't' :: rest => '\t' :: characterSet rest
  | first :: '-' :: last :: rest =>
    ((List.range' first.toNat (last.toNat + 1 - first.toNat)).map Char.ofNat) ++ characterSet rest
  | c :: rest => c :: characterSet rest
  | [] => []

/-- Replaces or drops characters. -/
def tr (arguments : List String) : Run Nat := do
  let text := Text.utf8Lossy (← readAll 0)
  let changed := match arguments with
    | ["-d", set] => text.filter fun c => !(characterSet set.toList).contains c
    | source :: target :: _ =>
      let source := characterSet source.toList
      let target := characterSet target.toList
      text.map fun c =>
        match source.findIdx? (· == c) with
        | some index => (target[index]?).getD (target.getLast?.getD c)
        | none => c
    | _ => text
  write 1 (Text.utf8 changed)
  return 0

/-- Prints what it reads and writes it into files. -/
def tee (arguments : List String) : Run Nat := do
  let bytes ← readAll 0
  write 1 bytes
  forAll (splitFlags arguments).2 fun path =>
    change ("tee: " ++ path) fun files => files.write path bytes

/-- The comparison of numbers that an operator stands for. -/
def comparison? : String → Option (Int → Int → Bool)
  | "-eq" => some (· == ·)
  | "-ne" => some (· != ·)
  | "-lt" => some fun a b => a < b
  | "-le" => some fun a b => a ≤ b
  | "-gt" => some fun a b => b < a
  | "-ge" => some fun a b => b ≤ a
  | _ => none

/-- Whether an expression of one operator or none holds, if it is a proper one. -/
def primary? (files : FileTree) : List String → Option Bool
  | [] => some false
  | [text] => some (!text.isEmpty)
  | [operator, text] =>
    match operator with
    | "-n" => some (!text.isEmpty)
    | "-z" => some text.isEmpty
    | "-e" | "-r" | "-w" => some (files.names text || text == "/dev/null")
    | "-f" => some (files.isFile text)
    | "-d" | "-x" => some (files.isDirectory text)
    | "-s" => some (((files.read text).toOption.map fun bytes => !bytes.isEmpty).getD false)
    | "-L" | "-h" | "-p" | "-S" | "-t" => some false
    | _ => none
  | [left, operator, right] =>
    match operator with
    | "=" | "==" => some (left == right)
    | "!=" => some (left != right)
    | operator => do
      let compare ← comparison? operator
      return compare (← Text.boundedInt? Text.maxSigned (Text.trim left.toList))
        (← Text.boundedInt? Text.maxSigned (Text.trim right.toList))
  | _ => none

/-- Whether an expression holds, if it is a proper one. -/
def holds? (files : FileTree) : (fuel : Nat) → List String → Option Bool
  | 0, _ => none
  | fuel + 1, words =>
    match primary? files words with
    | some value => some value
    | none =>
      let split := fun (symbol : String) =>
        let front := words.takeWhile (· != symbol)
        if front.length < words.length && !front.isEmpty then
          some (front, words.drop (front.length + 1))
        else none
      match split "-o", split "-a", words with
      | some (front, back), _, _ => do
        return (← holds? files fuel front) || (← holds? files fuel back)
      | none, some (front, back), _ => do
        return (← holds? files fuel front) && (← holds? files fuel back)
      | none, none, "!" :: rest => (holds? files fuel rest).map not
      | _, _, _ => none

/-- Tests an expression. -/
def test (name : String) (words : List String) : Run Nat := do
  match holds? (← get).files (words.length + 1) words with
  | some true => return 0
  | some false => return 1
  | none => complain (name ++ ": unexpected operator") 2

/-- The last component of a path, without an ending. -/
def basename (arguments : List String) : Run Nat := do
  let name := (Path.fileName? (arguments.headD "")).getD (arguments.headD "")
  let ending := arguments[1]?.getD ""
  let short := ((Text.beforeEnd ending.toList name.toList).map String.ofList).getD name
  writeText 1 ((if short.isEmpty then name else short) ++ "\n")
  return 0

/-- The directory of a path. -/
def dirname (arguments : List String) : Run Nat := do
  let parent := (Path.parent? (arguments.headD "")).getD "/"
  writeText 1 ((if parent.isEmpty then "." else parent) ++ "\n")
  return 0

/-- Prints the variables that programs get. -/
def printVariables : Run Nat := do
  let bindings := (← get).bindings.filter Variable.exported
  writeText 1 (String.join (bindings.map fun v => v.name ++ "=" ++ v.value ++ "\n"))
  return 0

/-- Prints the value of a variable. -/
def printVariable (name : String) : Run Nat := do
  match (← get).bindings.find? fun v => v.exported && v.name == name with
  | some v =>
    writeText 1 (v.value ++ "\n")
    return 0
  | none => return 1

/-- The program with a name, if it is known. -/
def named? (name : String) : Option (List String → Run Nat) :=
  match name with
  | "cat" => some cat
  | "cp" => some cp
  | "mv" => some mv
  | "rm" => some rm
  | "touch" => some touch
  | "mkdir" => some mkdir
  | "rmdir" => some rmdir
  | "ls" => some ls
  | "sed" => some sed
  | "grep" => some grep
  | "head" => some head
  | "tail" => some tail
  | "wc" => some wc
  | "seq" => some seq
  | "tr" => some tr
  | "tee" => some tee
  | "sleep" => some sleep
  | "basename" => some basename
  | "dirname" => some dirname
  | "echo" => some echo
  | "printf" => some printf
  | "test" => some (test "test")
  | "true" => some fun _ => return 0
  | "false" => some fun _ => return 1
  | "uname" => some fun _ => do
    writeText 1 "Linux\n"
    return 0
  | "printenv" => some fun arguments =>
    match arguments with
    | [] => printVariables
    | name :: _ => printVariable name
  | _ => none

end Tool
end Shell
end DebugBridge
