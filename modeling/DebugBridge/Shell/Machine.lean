import DebugBridge.Shell.Arithmetic
import DebugBridge.Shell.Grammar
import DebugBridge.Shell.Signal
import DebugBridge.Shell.Tool

/-!
Running scripts.  Words are expanded: parameters, arithmetic and the output of commands are put in,
what was not quoted is split at blanks, and patterns become the names of files that match.  Commands
are then run one after another.
-/

namespace DebugBridge
namespace Shell

open Run

/-- A piece of an expanded word. -/
inductive Piece where
  /-- Characters that stay together, each with whether it is quoted. -/
  | kept (characters : List (Char × Bool))
  /-- Characters that are split at blanks. -/
  | loose (characters : List Char)
  /-- The border between two words. -/
  | border

/-- A text as a piece. -/
def Piece.ofText (isQuoted : Bool) (text : String) : Piece :=
  if isQuoted then .kept (text.toList.map (·, true)) else .loose text.toList

/-- The characters of a piece, with whether they are quoted. -/
def Piece.characters : Piece → List (Char × Bool)
  | .kept characters => characters
  | .loose characters => characters.map (·, false)
  | .border => [(' ', false)]

/-- The text of some pieces. -/
def textOfPieces (pieces : List Piece) : String :=
  String.ofList ((pieces.flatMap Piece.characters).map Prod.fst)

/-- The pattern of some pieces. -/
def patternOfPieces (pieces : List Piece) : List PatternItem :=
  let characters := pieces.flatMap Piece.characters
  Pattern.read (characters.length + 1) characters

/-- The words in loose characters, `current` being the one that has been begun, reversed. -/
def splitLoose (current : Option (List (Char × Bool))) :
    List Char → List (List (Char × Bool)) × Option (List (Char × Bool))
  | [] => ([], current)
  | c :: rest =>
    if c == ' ' || c == '\t' || c == '\n' then
      let (words, last) := splitLoose none rest
      ((current.map List.reverse).toList ++ words, last)
    else splitLoose (some ((c, false) :: current.getD [])) rest

/-- The words in some pieces, `current` being the one that has been begun, reversed. -/
def wordsOfPieces (current : Option (List (Char × Bool))) : List Piece → List (List (Char × Bool))
  | [] => (current.map List.reverse).toList
  | .border :: rest => (current.map List.reverse).toList ++ wordsOfPieces none rest
  | .kept characters :: rest =>
    wordsOfPieces (some (characters.reverse ++ current.getD [])) rest
  | .loose characters :: rest =>
    let (words, last) := splitLoose current characters
    words ++ wordsOfPieces last rest

/-- The names of files that match a pattern, or its text where none does. -/
def filesMatching (files : FileTree) (word : List (Char × Bool)) : List String :=
  let text := String.ofList (word.map Prod.fst)
  let pattern := Pattern.read (word.length + 1) word
  if !Pattern.isProper pattern then [text]
  else
    let (directory, last) := match Text.splitLast '/' text.toList with
      | some (front, _) => (String.ofList (front ++ ['/']), word.drop (front.length + 1))
      | none => ("", word)
    match files.find (if directory.isEmpty then "." else directory) with
    | .ok (place, .directory) =>
      let pattern := Pattern.read (last.length + 1) last
      let names := (Tool.namesIn files place).filter fun name => Pattern.accepts pattern name.toList
      if names.isEmpty then [text] else names.map fun name => directory ++ name
    | _ => [text]

/-- A complaint of the shell. -/
def complaint (text : String) (status : Nat) : Run Nat := do
  complain ((← get).name ++ ": 1: " ++ text) status

/-- Sets the exit code. -/
def setStatus (status : Nat) : Run Unit := modify fun state => { state with status }

/-- The value of a parameter, if it has one. -/
def parameterValue? (name : String) : Run (Option String) := do
  let state ← get
  match name with
  | "?" => return some (toString state.status)
  | "#" => return some (toString state.arguments.length)
  | "$" => return some (toString state.process)
  | "0" => return some state.name
  | "@" | "*" =>
    return if state.arguments.isEmpty then none else some (" ".intercalate state.arguments)
  | "!" | "-" => return none
  | name =>
    match Text.decimal? name.toList with
    | some number => return state.arguments[number - 1]?
    | none => variableValue? name

/-- Opens the target of a redirection; gives a complaint if that fails. -/
def openTarget (redirect : Redirect) (target : String) : Run (Option String) := do
  let files := (← get).files
  let use := fun (channel : Channel) => do
    assign redirect.descriptor channel
    return none
  let refused := fun (verb : String) (error : FileError) =>
    let reason := match error with
      | .notFound => if verb == "open" then "No such file" else "Directory nonexistent"
      | error => error.wording
    return some ("cannot " ++ verb ++ " " ++ target ++ ": " ++ reason)
  match redirect.mode, target with
  | .duplicate, "-" => use .nothing
  | .duplicate, target => use (← channel ((Text.decimal? target.toList).getD 0))
  | _, "/dev/null" => use .nothing
  | _, "/dev/stdout" => use (← channel 1)
  | _, "/dev/stderr" => use (← channel 2)
  | .read, target =>
    match files.read target with
    | .ok bytes => use (.supplied (← newSupply bytes))
    | .error error => refused "open" error
  | mode, target =>
    let kept := match files.read target with
      | .ok bytes => if mode == .append then bytes else []
      | .error _ => []
    match files.write target kept, files.locate target with
    | .ok files, .ok place =>
      setFiles files
      use (.file place)
    | .error error, _ | _, .error error => refused "create" error

/-- What a loop does after a round: whether it goes on. -/
def afterRound (result : Except Halt Unit) : Run Bool :=
  match result with
  | .ok () => return true
  | .error (.leave (loops + 1)) => if loops == 0 then return false else throw (.leave loops)
  | .error (.again (loops + 1)) => if loops == 0 then return true else throw (.again loops)
  | .error halt => throw halt

/-- A round for each of some words, until one says that it is the last. -/
def eachWord (round : String → Run Bool) : List String → Run Unit
  | [] => return ()
  | word :: rest => do
    if ← round word then eachWord round rest

/-- Runs something while failures do not end the script. -/
def watching (run : Run α) : Run α := do
  modify fun state => { state with guarded := true }
  restoring (fun before after => { after with guarded := before.guarded })  run

/-- Runs something in an environment of its own; an exit ends that only. -/
def inSubshell (run : Run Unit) : Run Unit := do
  let result ← outcome (apart do
    modify fun state => { state with traps := [] }
    run
    return (← get).status)
  match result with
  | .ok status | .error (.exit status) => setStatus status
  | .error (.leave _) | .error (.again _) | .error .return => return ()
  | .error halt => throw halt

/-- A number that a builtin command is given. -/
def numberArgument (arguments : List String) (usual : Nat) : Nat :=
  ((arguments.head?.bind fun text => Text.decimal? text.toList).getD usual)

/-- Gives the words of a line to variables, the last one getting the rest. -/
def assignWords : List String → List Char → Run Unit
  | [], _ => return ()
  | [name], text => setVariable name (String.ofList (Text.trim text)) false
  | name :: names, text => do
    let text := text.dropWhile Text.isBlank
    setVariable name (String.ofList (text.takeWhile fun c => !Text.isBlank c)) false
    assignWords names (text.dropWhile fun c => !Text.isBlank c)

/-- Marks variables for programs that are started, giving them values where some are given. -/
def exportVariables (arguments : List String) : Run Unit :=
  arguments.forM fun argument => do
    let name := argument.toList.takeWhile (· != '=')
    let old ← variableValue? (String.ofList name)
    if name.length < argument.length then
      setVariable (String.ofList name) (String.ofList (argument.toList.drop (name.length + 1))) true
    else
      match old with
      | some value => setVariable argument value true
      | none => return ()

/-- Builtin commands that start nothing. -/
def builtin? (name : String) (arguments : List String) : Option (Run Nat) :=
  match name with
  | ":" | "umask" | "ulimit" | "wait" => some do
    if name == "wait" then
      let state ← get
      spend (state.backgroundEnd - state.clock)
    return 0
  | "exit" => some do
    match arguments with
    | text :: _ =>
      match Text.decimal? text.toList with
      | some number => throw (.exit (number % 256))
      | none => throw (.exit (← complaint ("exit: Illegal number: " ++ text) 2))
    | [] => throw (.exit (← get).status)
  | "break" => some (throw (.leave (numberArgument arguments 1)))
  | "continue" => some (throw (.again (numberArgument arguments 1)))
  | "return" => some do
    setStatus (numberArgument arguments (← get).status % 256)
    throw .return
  | "cd" => some do
    let home := (← variableValue? "HOME").getD "/"
    let target := arguments.headD home
    match (← get).files.find target with
    | .ok (place, .directory) =>
      modify fun state => { state with files := { state.files with workingPlace := place } }
      return 0
    | _ => complaint ("cd: can't cd to " ++ target) 2
  | "pwd" => some do
    writeText 1 ("/" ++ "/".intercalate (← get).files.workingPlace ++ "\n")
    return 0
  | "export" | "readonly" => some do
    exportVariables arguments
    return 0
  | "local" => some do
    arguments.forM fun argument => do
      let name := argument.toList.takeWhile (· != '=')
      let value := argument.toList.drop (name.length + 1)
      setVariable (String.ofList name) (String.ofList value) false
    return 0
  | "unset" => some do
    modify fun state => { state with
      bindings := state.bindings.filter fun entry => !arguments.contains entry.name }
    return 0
  | "set" => some do
    let flags := arguments.takeWhile fun argument => argument != "--" && argument.startsWith "-"
    let rest := arguments.drop flags.length
    let strict := flags.any fun flag => flag.toList.contains 'e'
    let arguments := if rest.head? == some "--" then some (rest.drop 1)
      else if rest.isEmpty then none else some rest
    modify fun state => { state with
      strict := state.strict || strict, arguments := arguments.getD state.arguments }
    return 0
  | "shift" => some do
    let count := numberArgument arguments 1
    modify fun state => { state with arguments := state.arguments.drop count }
    return 0
  | "read" => some do
    let names := arguments.filter fun argument => !argument.startsWith "-"
    match ← readLine 0 with
    | some line =>
      assignWords (if names.isEmpty then ["REPLY"] else names) (Text.utf8Lossy line)
      return 0
    | none =>
      assignWords names (Text.utf8Lossy (← readAll 0))
      return 1
  | "trap" => some do
    let signals := (arguments.drop 1).filterMap Signal.ofText?
    let action := arguments.headD "-"
    modify fun state =>
      let others := state.traps.filter fun trap => !signals.contains trap.1
      let added := if action == "-" then [] else signals.map fun signal => (signal, action)
      { state with traps := others ++ added }
    return 0
  | "[" => some (do
    if arguments.getLast? == some "]" then Tool.test "[" arguments.dropLast
    else complaint "[: missing ]" 2)
  | "echo" | "printf" | "test" | "true" | "false" =>
    (Tool.named? name).map fun tool => tool arguments
  | _ => none

/-- The name of a program where it is looked for. -/
def programName? (path : String) : Option String :=
  if !path.toList.contains '/' then some path
  else if ["/bin", "/usr/bin", "/usr/local/bin"].contains ((Path.parent? path).getD "") then
    Path.fileName? path
  else none

/-- Names of the shell itself. -/
def shellNames : List String := ["sh", "dash", "bash"]

/-- Whether there is a program with a name. -/
def isProgram (path : String) : Bool :=
  (programName? path).any fun name =>
    shellNames.contains name || name == "env" || name == "[" || (Tool.named? name).isSome

/-- How a shell is called. -/
structure Invocation where
  /-- The script, if it is given as an argument. -/
  script : Option String
  /-- The file of the script, if it is in one. -/
  file : Option String
  /-- The name of the script. -/
  name : String
  /-- The arguments of the script. -/
  arguments : List String
  /-- Whether a command that fails ends the script. -/
  strict : Bool

/-- How a shell is called by some arguments. -/
def Invocation.ofArguments (shell : String) (arguments : List String) : Invocation :=
  let options := arguments.takeWhile fun argument => argument.startsWith "-" && argument != "-"
  let letters := options.flatMap String.toList
  let rest := arguments.drop options.length
  let strict := letters.contains 'e'
  if letters.contains 'c' then
    { script := some (rest.headD ""), file := none, name := (rest[1]?).getD shell
      arguments := rest.drop 2, strict }
  else if letters.contains 's' || rest.isEmpty then
    { script := none, file := none, name := shell, arguments := rest, strict }
  else
    { script := none, file := rest.head?, name := rest.headD shell, arguments := rest.drop 1
      strict }

mutual

/-- The pieces of a word. -/
def expand : (fuel : Nat) → Word → Run (List Piece)
  | 0, _ => throw .timeUp
  | _ + 1, [] => return []
  | fuel + 1, part :: rest => do
    let first ← expandPart fuel part
    return first ++ (← expand fuel rest)

/-- The text of a word. -/
def expandText : (fuel : Nat) → Word → Run String
  | 0, _ => throw .timeUp
  | fuel + 1, word => do return textOfPieces (← expand fuel word)

/-- The pieces of a part. -/
def expandPart : (fuel : Nat) → Part → Run (List Piece)
  | 0, _ => throw .timeUp
  | fuel + 1, part => do
    match part with
    | .plain content => return [.kept (content.toList.map (·, false))]
    | .quoted content => return [.kept (content.toList.map (·, true))]
    | .arithmetic source isQuoted =>
      let text ← expandText fuel source
      let bindings := (← get).bindings
      let valueOf := fun name =>
        let entry := bindings.find? fun entry => entry.name == name
        ((entry.bind fun entry => Text.boundedInt? Text.maxSigned entry.value.toList).getD 0 : Int)
      match Arithmetic.evaluate? valueOf text.toList with
      | some value => return [.ofText isQuoted (toString value)]
      | none =>
        let text := "arithmetic expression: expecting primary: \"" ++ text ++ "\""
        throw (.exit (← complaint text 2))
    | .output script isQuoted =>
      let bytes ← collect fuel script
      let text := Text.dropEndWhile (· == '\n') (Text.utf8Lossy bytes)
      return [.ofText isQuoted (String.ofList text)]
    | .parameter "@" .none _ true =>
      return ((← get).arguments.map (Piece.ofText true)).intersperse .border
    | .parameter "@" .none _ false | .parameter "*" .none _ false =>
      return ((← get).arguments.map (Piece.ofText false)).intersperse .border
    | .parameter name change argument isQuoted =>
      let value ← parameterValue? name
      let text := value.getD ""
      let shown := fun text => return [Piece.ofText isQuoted text]
      let lacks := fun (orEmpty : Bool) => value.isNone || (orEmpty && text.isEmpty)
      match change with
      | .none => shown text
      | .length => shown (toString text.length)
      | .default orEmpty => if lacks orEmpty then expand fuel argument else shown text
      | .alternative orEmpty => if lacks orEmpty then return [] else expand fuel argument
      | .assign orEmpty =>
        if lacks orEmpty then
          let text ← expandText fuel argument
          setVariable name text false
          shown text
        else shown text
      | .require orEmpty =>
        if lacks orEmpty then
          let text ← expandText fuel argument
          throw (.exit (← complaint (name ++ ": " ++
            if text.isEmpty then "parameter not set or null" else text) 2))
        else shown text
      | .dropFront longest =>
        let pattern := patternOfPieces (← expand fuel argument)
        shown (String.ofList (Pattern.dropFront longest pattern text.toList))
      | .dropBack longest =>
        let pattern := patternOfPieces (← expand fuel argument)
        shown (String.ofList (Pattern.dropBack longest pattern text.toList))

/-- What a script prints. -/
def collect : (fuel : Nat) → String → Run (List UInt8)
  | 0, _ => throw .timeUp
  | fuel + 1, script => do
    let number ← newCollection
    inSubshell do
      assign 1 (.collected number)
      spend startTime
      source fuel script
    return ((← get).collections[number]?).getD []

/-- The words that some words become. -/
def expandWords : (fuel : Nat) → List Word → Run (List String)
  | 0, _ => throw .timeUp
  | _ + 1, [] => return []
  | fuel + 1, word :: rest => do
    let words := wordsOfPieces none (← expand fuel word)
    let files := (← get).files
    return words.flatMap (filesMatching files) ++ (← expandWords fuel rest)

/-- Opens the targets of redirections; gives the first complaint. -/
def redirectAll : (fuel : Nat) → List Redirect → Run (Option String)
  | 0, _ => throw .timeUp
  | _ + 1, [] => return none
  | fuel + 1, redirect :: rest => do
    match ← openTarget redirect (← expandText fuel redirect.target) with
    | some text => return some text
    | none => redirectAll fuel rest

/-- Runs something with redirections. -/
def withRedirects : (fuel : Nat) → List Redirect → Run Unit → Run Unit
  | 0, _, _ => throw .timeUp
  | fuel + 1, redirects, run =>
    withDescriptors do
      match ← redirectAll fuel redirects with
      | some text => setStatus (← complaint text 2)
      | none => run

/-- Gives variables their values. -/
def assignAll : (fuel : Nat) → (exported : Bool) → List (String × Word) → Run Unit
  | 0, _, _ => throw .timeUp
  | _ + 1, _, [] => return ()
  | fuel + 1, exported, (name, word) :: rest => do
    setVariable name (← expandText fuel word) exported
    assignAll fuel exported rest

/-- Ends a strict script if the last command has failed. -/
def check : (fuel : Nat) → Run Unit
  | 0 => throw .timeUp
  | _ + 1 => do
    let state ← get
    if state.strict && !state.guarded && state.status != 0 then throw (.exit state.status)

/-- Runs a command. -/
def execute : (fuel : Nat) → Command → Run Unit
  | 0, _ => throw .timeUp
  | fuel + 1, command => do
    spend stepTime
    match command with
    | .simple assignments words redirects =>
      setStatus (← get).status
      match ← expandWords fuel words with
      | [] =>
        setStatus 0
        withRedirects fuel redirects (assignAll fuel false assignments)
      | ["exec"] =>
        match ← redirectAll fuel redirects with
        | some text => throw (.exit (← complaint text 2))
        | none => setStatus 0
      | name :: arguments =>
        restoring (fun before after =>
            if assignments.isEmpty then after else { after with bindings := before.bindings }) do
          assignAll fuel true assignments
          withRedirects fuel redirects do setStatus (← call fuel name arguments)
      check fuel
    | .pipeline negated commands =>
      if negated then watching (pipe fuel none commands) else pipe fuel none commands
      if negated then
        let status := (← get).status
        setStatus (if status == 0 then 1 else 0)
      else check fuel
    | .and first second =>
      watching (execute fuel first)
      if (← get).status == 0 then execute fuel second
    | .or first second =>
      watching (execute fuel first)
      if (← get).status != 0 then execute fuel second
    | .sequence [] => setStatus 0
    | .sequence commands => executeAll fuel commands
    | .background command =>
      let start := (← get).clock
      match ← outcome (inSubshell (execute fuel command)) with
      | .error (.signalled process signal) => throw (.signalled process signal)
      | _ => modify fun state => { state with
          clock := start, status := 0, backgroundEnd := max state.backgroundEnd state.clock }
    | .conditional condition consequence alternative =>
      watching (execute fuel condition)
      if (← get).status == 0 then execute fuel consequence else execute fuel alternative
    | .loop untilSuccess condition body =>
      setStatus 0
      let limit := (← get).limit
      whileTrue (do
        let before := (← get).status
        watching (execute fuel condition)
        if ((← get).status == 0) == untilSuccess then
          setStatus before
          return false
        else afterRound (← outcome (execute fuel body))) limit
    | .forEach name words body =>
      let values ← match words with
        | some words => expandWords fuel words
        | none => pure (← get).arguments
      setStatus 0
      eachWord (fun value => do
        setVariable name value false
        afterRound (← outcome (execute fuel body))) values
    | .caseOf word branches => choose fuel (← expandText fuel word) branches
    | .subshell command => inSubshell (execute fuel command)
    | .redirected command redirects => withRedirects fuel redirects (execute fuel command)
    | .define name body =>
      modify fun state => { state with functions := (name, body) :: state.functions, status := 0 }

/-- Runs commands in order. -/
def executeAll : (fuel : Nat) → List Command → Run Unit
  | 0, _ => throw .timeUp
  | _ + 1, [] => return ()
  | fuel + 1, command :: rest => do
    execute fuel command
    executeAll fuel rest

/-- Runs the stages of a pipeline, the first one reading `input` if there is any. -/
def pipe : (fuel : Nat) → (input : Option (List UInt8)) → List Command → Run Unit
  | 0, _, _ => throw .timeUp
  | _ + 1, _, [] => return ()
  | fuel + 1, input, command :: rest => do
    let supply := fun (run : Run Unit) => do
      match input with
      | some bytes =>
        let number ← newSupply bytes
        withDescriptors do
          assign 0 (.supplied number)
          run
      | none => run
    if rest.isEmpty then
      if input.isSome then inSubshell (supply (execute fuel command)) else execute fuel command
    else
      let number ← newCollection
      inSubshell (supply do
        assign 1 (.collected number)
        execute fuel command)
      pipe fuel ((← get).collections[number]?) rest

/-- Runs the first branch with a pattern that a text matches. -/
def choose : (fuel : Nat) → String → List (List Word × Command) → Run Unit
  | 0, _, _ => throw .timeUp
  | _ + 1, _, [] => setStatus 0
  | fuel + 1, text, (patterns, body) :: rest => do
    if ← matchesAny fuel text patterns then execute fuel body else choose fuel text rest

/-- Whether a text matches one of some patterns. -/
def matchesAny : (fuel : Nat) → String → List Word → Run Bool
  | 0, _, _ => throw .timeUp
  | _ + 1, _, [] => return false
  | fuel + 1, text, pattern :: rest => do
    if Pattern.accepts (patternOfPieces (← expand fuel pattern)) text.toList then return true
    else matchesAny fuel text rest

/-- Runs the commands in a text. -/
def source : (fuel : Nat) → String → Run Unit
  | 0, _ => throw .timeUp
  | fuel + 1, text => do
    match parse? text with
    | some command => execute fuel command
    | none => throw (.exit (← complaint "Syntax error: unexpected end of file" 2))

/-- A signal arrives at this process. -/
def deliver : (fuel : Nat) → Nat → Run Unit
  | 0, _ => throw .timeUp
  | fuel + 1, signal => do
    let state ← get
    match if Signal.isFinal signal then none
        else state.traps.find? fun trap => trap.1 == signal with
    | some (_, action) =>
      restoring (fun before after => { after with status := before.status }) (source fuel action)
    | none =>
      if Signal.isIdle signal then return ()
      else if Signal.stops signal then spend (state.limit + 1)
      else throw (.signalled state.process signal)

/-- Sends signals to processes. -/
def kill : (fuel : Nat) → List String → Run Nat
  | 0, _ => throw .timeUp
  | fuel + 1, arguments => do
    let (signal, targets) := match arguments with
      | "-s" :: name :: targets => (Signal.ofText? name, targets)
      | first :: targets =>
        match first.toList with
        | '-' :: name => (Signal.ofText? (String.ofList name), targets)
        | _ => (some Signal.terminate, first :: targets)
      | [] => (some Signal.terminate, [])
    match signal, targets with
    | none, _ => complaint ("kill: invalid signal number or name: " ++ arguments.headD "") 2
    | some _, [] => complaint "kill: Usage: kill [-s sigspec | -signum | -sigspec] [pid | job]..." 2
    | some signal, target :: _ =>
      if target == toString (← get).process then
        deliver fuel signal
        return 0
      else complaint "kill: No such process" 1

/-- Calls a function, a builtin command or a program. -/
def call : (fuel : Nat) → String → List String → Run Nat
  | 0, _, _ => throw .timeUp
  | fuel + 1, name, arguments => do
    match (← get).functions.find? fun entry => entry.1 == name with
    | some (_, body) =>
      let result ← outcome (restoring
        (fun before after => { after with arguments := before.arguments }) do
          modify fun state => { state with arguments }
          execute fuel body)
      match result with
      | .ok () | .error .return => return (← get).status
      | .error halt => throw halt
    | none =>
      match name, builtin? name arguments with
      | _, some run => run
      | "eval", none =>
        source fuel (" ".intercalate arguments)
        return (← get).status
      | ".", none =>
        match ← Tool.contents (arguments.headD "") with
        | .ok bytes =>
          source fuel (Text.textOf bytes)
          return (← get).status
        | .error _ =>
          let text := ".: cannot open " ++ arguments.headD "" ++ ": No such file"
          throw (.exit (← complaint text 2))
      | "command", none => call fuel (arguments.headD ":") (arguments.drop 1)
      | "exec", none => throw (.exit (← call fuel (arguments.headD ":") (arguments.drop 1)))
      | "kill", none => kill fuel arguments
      | name, none => launch fuel name arguments

/-- Starts a program. -/
def launch : (fuel : Nat) → String → List String → Run Nat
  | 0, _, _ => throw .timeUp
  | fuel + 1, path, arguments => do
    spend startTime
    let missing := do
      if (← get).files.names path && path.toList.contains '/' then
        complaint (path ++ ": Permission denied") 126
      else complaint (path ++ ": not found") 127
    match programName? path with
    | none => missing
    | some name =>
      if shellNames.contains name then
        let process := (← get).process + 1
        match ← outcome (apart do
            modify fun state => { state with process }
            shell fuel path arguments) with
        | .ok status => return status
        | .error (.signalled ended signal) =>
          if ended == process then
            writeText 2 ((Signal.obituary? signal).elim "" (· ++ "\n"))
            return 128 + signal
          else throw (.signalled ended signal)
        | .error halt => throw halt
      else if name == "env" then
        let settings := arguments.takeWhile fun argument => argument.toList.contains '='
        match arguments.drop settings.length with
        | [] => apart do
          exportVariables settings
          Tool.printVariables
        | name :: arguments => apart do
          exportVariables settings
          launch fuel name arguments
      else
        match Tool.named? name with
        | some tool => tool arguments
        | none => if name == "[" then Tool.test "[" arguments.dropLast else missing

/-- Runs a shell to its end, and what it has to do then. -/
def shell : (fuel : Nat) → String → List String → Run Nat
  | 0, _, _ => throw .timeUp
  | fuel + 1, name, arguments => do
    let invocation := Invocation.ofArguments name arguments
    modify fun state => { state with
      bindings := state.bindings.filter Variable.exported, functions := [], traps := []
      name := invocation.name, arguments := invocation.arguments, strict := invocation.strict
      guarded := false, status := 0 }
    let script ← match invocation.script, invocation.file with
      | some script, _ => pure (some script)
      | none, some file => do
        match (← get).files.read file with
        | .ok bytes => pure (some (Text.textOf bytes))
        | .error _ => pure none
      | none, none => do pure (some (Text.textOf (← readAll 0)))
    match script with
    | none =>
      complain (name ++ ": 0: cannot open " ++ invocation.name ++ ": No such file") 2
    | some script =>
      let result ← outcome (source fuel script)
      match result with
        | .ok () | .error (.leave _) | .error (.again _) | .error .return => pure ()
        | .error (.exit code) => setStatus code
        | .error halt => throw halt
      match (← get).traps.find? fun trap => trap.1 == 0 with
      | some (_, action) =>
        let status := (← get).status
        match ← outcome (source fuel action) with
        | .error (.exit code) => return code
        | .error halt => throw halt
        | .ok () => return status
      | none => return (← get).status

end

/-- Runs a program to its end. -/
def program (fuel : Nat) (path : String) (arguments : List String) : Run Nat := do
  if (programName? path).any shellNames.contains then shell fuel path arguments
  else launch fuel path arguments

end Shell
end DebugBridge
