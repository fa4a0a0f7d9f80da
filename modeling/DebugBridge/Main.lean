import DebugBridge.Console.Program
import DebugBridge.Data.Json

/-!
The command line, `ahkdbg [SETTINGS]`.  Lines come from the standard input and go to the standard
output.  The program works on the files as they are when it starts, in isolated surroundings.
-/

namespace DebugBridge
namespace CommandLine

/-- Environment variables that count. -/
def variableNames : List String :=
  ["HOME", "TMPDIR", "XDG_CONFIG_HOME", "XDG_DATA_HOME", "AHKDBG_LOG", "USERNAME", "USER",
    "COMPUTERNAME", "HOSTNAME", "WINDIR", "SystemRoot", "ProgramFiles", "ProgramData", "ComSpec"]

/-- The environment variables that count and are set. -/
def bindings : IO (List (String × String)) :=
  variableNames.filterMapM fun name => do
    return (← IO.getEnv name).map fun value => (name, value)

/-- The place of an absolute path. -/
def placeOf (path : String) : Place := (FileTree.components path).filter fun name => !name.isEmpty

/-- How deep directories are looked into. -/
def maxDepth : Nat := 12

/-- What is in a directory, as far as it can be read. -/
def entriesIn (path : String) : (depth : Nat) → IO (List (Place × Entry))
  | 0 => return []
  | depth + 1 => do
    let found ← try (← IO.FS.realPath path).readDir catch _ => pure #[]
    let below ← found.toList.mapM fun entry => do
      let path := entry.path.toString
      if ← entry.path.isDir then
        return (placeOf path, Entry.directory) :: (← entriesIn path depth)
      else
        try return [(placeOf path, Entry.file (← IO.FS.readBinFile path).toList)]
        catch _ => return []
    return below.flatten

/-- The directories on the way to a place. -/
def directoriesTo (place : Place) : List (Place × Entry) :=
  (List.range (place.length + 1)).map fun length => (place.take length, .directory)

/-- A file with the directories on the way to it, if it can be read. -/
def fileAt (path : String) : IO (List (Place × Entry)) := do
  try
    let path := (← IO.FS.realPath path).toString
    let bytes ← IO.FS.readBinFile path
    return directoriesTo (placeOf path).dropLast ++ [(placeOf path, .file bytes.toList)]
  catch _ => return []

/-- The files that the program can see: those below the working directory, its settings, and those
of projects above it. -/
def host (arguments : List String) : IO Host := do
  let directory := (← IO.currentDir).toString
  let place := placeOf directory
  let projects := (DebugConfig.ancestors directory.length directory).map fun above =>
    Path.join above DebugConfig.projectFileName
  let settings ← (arguments.take 1 ++ projects).mapM fileAt
  let below ← entriesIn directory maxDepth
  return {
    files := { entries := directoriesTo place ++ settings.flatten ++ below, workingPlace := place }
    environment := ⟨← bindings⟩ }

/-- Reads and writes lines until the program has ended; `seen` lines have been written out. -/
partial def converse (input output : IO.FS.Stream) (run : ProgramRun) (seen : Nat) :
    IO ProgramEnd := do
  for line in run.written.drop seen do
    output.putStrLn (Json.render line.toValue)
  output.flush
  match run.finish? with
  | some finish => return finish
  | none =>
    let line ← input.getLine
    let next := if line.isEmpty then run.closeInput else run.giveLine (Text.trimmed line)
    converse input output next.await run.written.length

/-- Debugs a script; gives the exit code. -/
def run (arguments : List String) : IO UInt32 := do
  let program := (ProgramRun.start (← host arguments) arguments.head?).await
  let finish ← converse (← IO.getStdin) (← IO.getStdout) program 0
  finish.complaints.forM IO.eprintln
  return finish.code.toUInt32

end CommandLine
end DebugBridge

/-- Debugs a script with the settings that are named on the command line. -/
def main (arguments : List String) : IO UInt32 := DebugBridge.CommandLine.run arguments
