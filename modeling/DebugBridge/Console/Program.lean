import DebugBridge.Config.Load
import DebugBridge.Config.Log
import DebugBridge.Console.Session

/-!
The whole program: it finds and reads its settings, makes room for its log, and debugs at the
console.
-/

namespace DebugBridge

/-- What the program comes to. -/
structure ProgramEnd where
  /-- Its exit code. -/
  code : Nat
  /-- What it complains of. -/
  complaints : List String

/-- The program on its way: it debugs, or has ended before it could. -/
structure ProgramRun where
  /-- The session at the console, if there is one. -/
  session : Option ConsoleSession
  /-- What it has complained of. -/
  complaints : List String

namespace ProgramRun

/-- A complaint of the program. -/
def complaint (text : String) : String := "ahkdbg: " ++ text

/-- The largest log that is left alone. -/
def maxLogSize : Nat := 10 * 1024 * 1024

/-- How many old logs are kept. -/
def maxLogFiles : Nat := 5

/-- The path of the settings: the one that is given, or the project's. -/
def settingsPath? (host : Host) (argument : Option String) : Option String :=
  argument <|> DebugConfig.findProjectFile? host.files host.workingDirectory

/-- The settings, or why there are none. -/
def settings (host : Host) (argument : Option String) : Except String DebugConfig :=
  match settingsPath? host argument with
  | none => .error ("no configuration given and no " ++ DebugConfig.projectFileName ++ " found")
  | some path =>
    (DebugConfig.load host.files path).mapError fun error =>
      "failed to load " ++ path ++ ": " ++ error.report

/-- Opens a log file for writing at its end, making it if it is not there. -/
def openLog (files : FileTree) (path : String) : Except FileError FileTree :=
  match files.read path with
  | .ok _ => .ok files
  | .error .notFound => files.write path []
  | .error error => .error error

/-- Makes room for the log and opens it; that it cannot be opened is only complained of. -/
def prepareLog (host : Host) (log : LogSettings) : Host × List String :=
  let path := log.file.getD (Log.defaultPath host.environment)
  let files := (Log.makeDirectory host.files path).toOption.getD host.files
  let (files, _) := Log.rotate files path maxLogSize maxLogFiles
  match openLog files path with
  | .ok files => ({ host with files }, [])
  | .error error =>
    ({ host with files },
      [complaint ("logging disabled, cannot open " ++ path ++ ": " ++ error.message)])

/-- Starts the program. -/
def start (host : Host) (argument : Option String) : ProgramRun :=
  match settings host argument with
  | .error fault => { session := none, complaints := [complaint fault] }
  | .ok config =>
    let (host, complaints) := prepareLog host config.log
    { session := some (.begin host config), complaints }

/-- The lines that the program has written. -/
def written (run : ProgramRun) : List ConsoleLine :=
  (run.session.map ConsoleSession.written).getD []

/-- How often time is let pass while nothing is read. -/
def patience : Nat := 100000

/-- Lets time pass until the program has ended or waits for a line. -/
def await (run : ProgramRun) : ProgramRun :=
  { run with session := run.session.map (ConsoleSession.await patience) }

/-- A line comes. -/
def giveLine (run : ProgramRun) (line : String) : ProgramRun :=
  { run with session := run.session.map (·.giveLine line) }

/-- No more lines come. -/
def closeInput (run : ProgramRun) : ProgramRun :=
  { run with session := run.session.map ConsoleSession.closeInput }

/-- What the program has come to, if it has ended. -/
def finish? (run : ProgramRun) : Option ProgramEnd :=
  match run.session.map ConsoleSession.activity with
  | none => some { code := 1, complaints := run.complaints }
  | some (.over none) => some { code := 0, complaints := run.complaints }
  | some (.over (some error)) =>
    some { code := 1, complaints := run.complaints ++ [complaint error.report] }
  | some _ => none

end ProgramRun
end DebugBridge
