import DebugBridge.Config.Basic
import DebugBridge.Debugger.Error
import DebugBridge.Net.Address
import DebugBridge.Script.Version

/-!
How the interpreter is called to debug a script, and the script by which it asks another one that
runs already to connect.
-/

namespace DebugBridge
namespace Launch

/-- The arguments with which the interpreter runs a script that connects to an address. -/
def arguments (config : DebugConfig) (address : String) : List String :=
  config.runtimeArgs ++ ["/Debug=" ++ address, config.program] ++ config.args

/-- The arguments with which the interpreter runs a script that it reads. -/
def helperArguments (config : DebugConfig) : List String :=
  config.runtimeArgs ++ ["/ErrorStdOut", "*"]

/-- The lines of the script that asks the window of a program to connect. -/
def requestLines (version : Version) (target : String) (host port : Nat) : List String :=
  let message :=
    "msg := DllCall(\"RegisterWindowMessage\", \"Str\", \"AHK_ATTACH_DEBUGGER\", \"UInt\")"
  let call := toString host ++ ", " ++ toString port ++ ", , "
  match version with
  | .v2 =>
    ["#NoTrayIcon", "DetectHiddenWindows true", "SetTitleMatchMode 2",
      "target := \"" ++ target ++ "\"", "if !WinExist(target)", "    ExitApp 1", message,
      "PostMessage msg, " ++ call ++ "target", "ExitApp 0"]
  | .v1 =>
    ["#NoTrayIcon", "DetectHiddenWindows, On", "SetTitleMatchMode, 2",
      "target := \"" ++ target ++ "\"", "if !WinExist(target)", "    ExitApp, 1", message,
      "PostMessage, %msg%, " ++ call ++ "%target%", "ExitApp, 0"]

/-- The script that asks a program to connect to an address, which must be an IPv4 one. -/
def requestScript (version : Version) (program : String) (address : SocketAddress) :
    Except DebugError String :=
  match address.host.mapped?.bind HostAddress.littleEndian? with
  | some host =>
    let target := program ++ " ahk_class AutoHotkey"
    .ok (String.join ((requestLines version target host address.port).map (· ++ "\n")))
  | none => .error (.process (.addressKind address.host.text))

end Launch
end DebugBridge
