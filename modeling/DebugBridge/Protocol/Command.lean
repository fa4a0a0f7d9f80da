import DebugBridge.Protocol.Error

/-!
Command lines.  A command is written as its name, its transaction id, its flags with their values,
and optional data in base-64 after two dashes, closed by a zero byte.  Values with blanks or quotes
in them, and empty ones, are quoted; in quotes a backslash makes the next character literal.
-/

namespace DebugBridge

/-- A command without its transaction id. -/
structure Command where
  /-- Name of the command. -/
  name : String
  /-- Flags with their values, in order. -/
  args : List (Char × String)
  /-- Data that is sent along. -/
  data : Option String
  deriving DecidableEq, Repr

namespace Command

/-- A command without arguments. -/
def named (name : String) : Command := { name, args := [], data := none }

/-- The command with one more argument. -/
def arg (command : Command) (flag : Char) (value : String) : Command :=
  { command with args := command.args ++ [(flag, value)] }

/-- The command with one more argument that is a number. -/
def argNat (command : Command) (flag : Char) (value : Nat) : Command :=
  command.arg flag (toString value)

/-- The command with one more argument if there is a value for it. -/
def arg? (command : Command) (flag : Char) (value : Option String) : Command :=
  match value with
  | some value => command.arg flag value
  | none => command

/-- The command with data. -/
def withData (command : Command) (data : String) : Command := { command with data := some data }

/-- The value of the first argument with a flag. -/
def get? (command : Command) (flag : Char) : Option String :=
  (command.args.find? fun entry => entry.1 == flag).map Prod.snd

/-- Whether a value has to be quoted. -/
def needsQuotes (value : List Char) : Bool :=
  value.isEmpty || value.any fun c => Text.isBlank c || c == '\x22' || c == '\x00'

/-- A value in the form in which it stands in a command line. -/
def quote (value : List Char) : List Char :=
  if needsQuotes value then
    '\x22' :: value.flatMap (fun c => if c == '\x22' || c == '\\' then ['\\', c] else [c]) ++
      ['\x22']
  else value

/-- One argument in a command line, with a blank in front. -/
def writtenArg (arg : Char × String) : List Char :=
  [' ', '-', arg.1, ' '] ++ quote arg.2.toList

/-- The data in a command line, with a blank in front. -/
def writtenData : Option String → List Char
  | some data => " -- ".toList ++ Text.Base64.encode (Text.bytesOf data)
  | none => []

/-- The command line without the zero byte that closes it. -/
def line (command : Command) (id : Nat) : List Char :=
  command.name.toList ++ " -i ".toList ++ (toString id).toList ++
    command.args.flatMap writtenArg ++ writtenData command.data

/-- The bytes of the command line. -/
def encode (command : Command) (id : Nat) : List UInt8 := Text.utf8 (command.line id) ++ [0]

/-- Where the reading of a command line stands. -/
inductive Reading where
  /-- Between tokens. -/
  | between
  /-- In a plain token, its characters so far reversed. -/
  | plain (token : List Char)
  /-- In a quoted token, its characters so far reversed. -/
  | quoted (token : List Char)
  /-- In a quoted token, after a backslash. -/
  | escaped (token : List Char)

/-- The tokens of the rest of a command line. -/
def tokensFrom : Reading → List Char → Except CommandFault (List (List Char))
  | .between, [] => .ok []
  | .plain token, [] => .ok [token.reverse]
  | .quoted _, [] => .error .unterminated
  | .escaped _, [] => .error .unterminated
  | .between, c :: rest =>
    if Text.isBlank c then tokensFrom .between rest
    else if c == '\x22' then tokensFrom (.quoted []) rest
    else tokensFrom (.plain [c]) rest
  | .plain token, c :: rest =>
    if Text.isBlank c then return token.reverse :: (← tokensFrom .between rest)
    else tokensFrom (.plain (c :: token)) rest
  | .quoted token, c :: rest =>
    if c == '\\' then tokensFrom (.escaped token) rest
    else if c == '\x22' then return token.reverse :: (← tokensFrom .between rest)
    else tokensFrom (.quoted (c :: token)) rest
  | .escaped token, c :: rest => tokensFrom (.quoted (c :: token)) rest

/-- The tokens of a command line. -/
def tokens (line : List Char) : Except CommandFault (List (List Char)) := tokensFrom .between line

/-- The text that base-64 data stands for. -/
def decodeData (encoded : List Char) : Except DataFault String := do
  let bytes ← (Text.Base64.decode (Text.utf8 encoded)).mapError .encoding
  let text ← (Text.utf8? bytes).mapError .text
  return String.ofList text

/-- Reads the flags, values and data after the name of a command, `id` being the transaction id
read so far. -/
def parseArgs (command : Command) (id : Option Nat) :
    List (List Char) → Except ProtocolError (Option Nat × Command)
  | [] => .ok (id, command)
  | token :: rest =>
    if token == ['-', '-'] then do
      let data ← (decodeData (rest.head?.getD [])).mapError .invalidData
      return (id, { command with data := some data })
    else
      match token, rest with
      | ['-', flag], [] => .error (.malformedCommand (.noValue flag))
      | ['-', flag], value :: rest =>
        if flag == 'i' then
          match Text.bounded? Text.maxWord value with
          | some id => parseArgs command (some id) rest
          | none => .error (.malformedCommand (.transactionId (String.ofList value)))
        else parseArgs (command.arg flag (String.ofList value)) id rest
      | token, _ => .error (.malformedCommand (.noFlag (String.ofList token)))

/-- Reads the bytes of a command line, up to the first zero byte if there is one. -/
def parse (bytes : List UInt8) : Except ProtocolError (Nat × Command) := do
  let line ← (Text.utf8? (bytes.takeWhile (· != 0))).mapError fun _ => .invalidText
  match ← (tokens line).mapError .malformedCommand with
  | [] => .error (.malformedCommand .empty)
  | name :: rest =>
    match ← parseArgs (named (String.ofList name)) none rest with
    | (some id, command) => return (id, command)
    | (none, _) => .error (.malformedCommand .noTransactionId)

end Command
end DebugBridge
