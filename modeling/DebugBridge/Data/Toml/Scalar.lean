import DebugBridge.Data.Value

/-!
The parts of a TOML document below tables and arrays: blanks, comments, strings, numbers and
moments.  A reader takes what it recognises off the front of a text and gives the rest.
-/

namespace DebugBridge
namespace Toml

/-- Whether a character may stand between the tokens of a line. -/
def isSpace (c : Char) : Bool := c == ' ' || c == '\t'

/-- Whether a character may stand in a comment, and in a string unless it is a quote or a backslash:
any but line breaks and the other control characters. -/
def isPlain (c : Char) : Bool := c == '\t' || (0x20 ≤ c.toNat && c.toNat != 0x7F)

/-- The text after blanks. -/
def skipSpace (text : List Char) : List Char := text.dropWhile isSpace

/-- The text after a line break. -/
def newline? : List Char → Option (List Char)
  | '\n' :: rest => some rest
  | '\r' :: '\n' :: rest => some rest
  | _ => none

/-- The text after a comment, if there is one. -/
def skipComment : List Char → List Char
  | '#' :: rest => rest.dropWhile isPlain
  | text => text

/-- The text after what may end a line: blanks, a comment, and the line break or the end. -/
def lineEnd? (text : List Char) : Option (List Char) :=
  match skipComment (skipSpace text) with
  | [] => some []
  | text => newline? text

/-- The text after blanks, line breaks and comments; every comment ends with its line. -/
def skipLines : Nat → List Char → Option (List Char)
  | 0, _ => none
  | fuel + 1, text =>
    match skipSpace text with
    | '#' :: rest => (newline? (rest.dropWhile isPlain)).bind (skipLines fuel)
    | text =>
      match newline? text with
      | some rest => skipLines fuel rest
      | none => some text

/-- The value of a hexadecimal digit. -/
def hexValue? (c : Char) : Option Nat :=
  if Text.isDigit c then some (c.toNat - '0'.toNat)
  else if 'a' ≤ c && c ≤ 'f' then some (c.toNat - 'a'.toNat + 10)
  else if 'A' ≤ c && c ≤ 'F' then some (c.toNat - 'A'.toNat + 10)
  else none

/-- The character with a code, if there is one. -/
def charOf? (code : Nat) : Option Char :=
  if code < 0xD800 || (0xDFFF < code && code ≤ 0x10FFFF) then some (Char.ofNat code) else none

/-- A character given by a number of hexadecimal digits. -/
def hexChar? (count : Nat) (text : List Char) : Option (Char × List Char) := do
  let digits ← (text.take count).mapM hexValue?
  if digits.length = count then
    return (← charOf? (digits.foldl (fun value digit => value * 16 + digit) 0), text.drop count)
  else none

/-- The character that follows a backslash in a string stands for. -/
def escape? : List Char → Option (Char × List Char)
  | 'b' :: rest => some ('\x08', rest)
  | 'f' :: rest => some ('\x0c', rest)
  | 'n' :: rest => some ('\n', rest)
  | 'r' :: rest => some ('\r', rest)
  | 't' :: rest => some ('\t', rest)
  | '\x22' :: rest => some ('\x22', rest)
  | '\\' :: rest => some ('\\', rest)
  | 'u' :: rest => hexChar? 4 rest
  | 'U' :: rest => hexChar? 8 rest
  | _ => none

/-- The rest of a string in double quotes. -/
def basicString? : Nat → List Char → Option (List Char × List Char)
  | 0, _ => none
  | fuel + 1, text =>
    match text with
    | '\x22' :: rest => some ([], rest)
    | '\\' :: rest => do
      let (c, rest) ← escape? rest
      let (tail, rest) ← basicString? fuel rest
      return (c :: tail, rest)
    | c :: rest => do
      if isPlain c then
        let (tail, rest) ← basicString? fuel rest
        return (c :: tail, rest)
      else none
    | [] => none

/-- The rest of a string in single quotes. -/
def literalString? (text : List Char) : Option (List Char × List Char) :=
  let inside := fun c => isPlain c && c != '\x27'
  match text.dropWhile inside with
  | '\x27' :: rest => some (text.takeWhile inside, rest)
  | _ => none

/-- A run of quotes in a string of several lines: fewer than three are part of it, and up to two
more than three are so too, the last three closing it.  Gives how many are part of the string and
whether it is closed. -/
def quoteRun (count : Nat) : Nat × Bool :=
  if count < 3 then (count, false) else (min (count - 3) 2, true)

/-- The text after the blanks and line breaks that a backslash at the end of a line takes out. -/
def skipFold? (text : List Char) : Option (List Char) :=
  (newline? (skipSpace text)).map fun rest =>
    rest.dropWhile fun c => isSpace c || c == '\n' || c == '\r'

/-- Whether every carriage return among the leading blanks and line breaks has its line feed. -/
def foldIsClean : List Char → Bool
  | '\r' :: '\n' :: rest => foldIsClean rest
  | '\r' :: _ => false
  | c :: rest => if isSpace c || c == '\n' then foldIsClean rest else true
  | [] => true

/-- The rest of a string of several lines in double (`escapes`) or single quotes. -/
def longString? (quote : Char) (escapes : Bool) : Nat → List Char → Option (List Char × List Char)
  | 0, _ => none
  | fuel + 1, text =>
    match text with
    | [] => none
    | c :: rest =>
      if c == quote then
        let (kept, closed) := quoteRun (text.takeWhile (· == quote)).length
        let after := text.drop (if closed then kept + 3 else kept)
        if closed then some (List.replicate kept quote, after)
        else do
          let (tail, rest) ← longString? quote escapes fuel after
          return (List.replicate kept quote ++ tail, rest)
      else if escapes && c == '\\' then
        match skipFold? rest with
        | some after => if foldIsClean rest then longString? quote escapes fuel after else none
        | none => do
          let (c, rest) ← escape? rest
          let (tail, rest) ← longString? quote escapes fuel rest
          return (c :: tail, rest)
      else
        match newline? text with
        | some rest => do
          let (tail, rest) ← longString? quote escapes fuel rest
          return ('\n' :: tail, rest)
        | none => do
          if isPlain c then
            let (tail, rest) ← longString? quote escapes fuel rest
            return (c :: tail, rest)
          else none

/-- A text without one leading line break. -/
def dropNewline (text : List Char) : List Char := (newline? text).getD text

/-- A string of one line. -/
def lineString? : List Char → Option (List Char × List Char)
  | '\x22' :: rest => basicString? (rest.length + 1) rest
  | '\x27' :: rest => literalString? rest
  | _ => none

/-- A string. -/
def string? : List Char → Option (List Char × List Char)
  | '\x22' :: '\x22' :: '\x22' :: rest =>
    longString? '\x22' true (rest.length + 1) (dropNewline rest)
  | '\x27' :: '\x27' :: '\x27' :: rest =>
    longString? '\x27' false (rest.length + 1) (dropNewline rest)
  | text => lineString? text

/-- Whether digits with underscores among them have each underscore between two digits. -/
def wellSpaced : List Char → Bool
  | [] => false
  | ['_'] => false
  | '_' :: _ => false
  | [_] => true
  | _ :: '_' :: rest => wellSpaced rest
  | _ :: rest => wellSpaced rest

/-- A run of digits, single underscores between them being left out. -/
def digits? (isDigit : Char → Bool) (text : List Char) : Option (List Char × List Char) :=
  let inside := fun c => isDigit c || c == '_'
  let run := text.takeWhile inside
  if wellSpaced run then some (run.filter (· != '_'), text.dropWhile inside) else none

/-- Whether a number is negative, and the text after its sign. -/
def takeSign : List Char → Bool × List Char
  | '-' :: rest => (true, rest)
  | '+' :: rest => (false, rest)
  | text => (false, text)

/-- Decimal digits without leading zeros. -/
def decimalDigits? : List Char → Option (List Char × List Char)
  | '0' :: rest => some (['0'], rest)
  | text => digits? Text.isDigit text

/-- The value of digits to a base. -/
def valueOf (base : Nat) (digits : List Char) : Nat :=
  digits.foldl (fun value c => value * base + (hexValue? c).getD 0) 0

/-- An integer of 64 bits whose digits have been read. -/
def boundedInteger? (negative : Bool) (magnitude : Nat) : Option Value :=
  if negative then
    if magnitude ≤ Text.maxSigned + 1 then some (.integer (-(magnitude : Int))) else none
  else if magnitude ≤ Text.maxSigned then some (.integer magnitude)
  else none

/-- A natural number to a base, after the mark for the base. -/
def basedInteger? (base : Nat) (text : List Char) : Option (Value × List Char) := do
  let (digits, rest) ← digits? (fun c => (hexValue? c).any (· < base)) text
  return (← boundedInteger? false (valueOf base digits), rest)

/-- An integer. -/
def integer? : List Char → Option (Value × List Char)
  | '0' :: 'x' :: rest => basedInteger? 16 rest
  | '0' :: 'o' :: rest => basedInteger? 8 rest
  | '0' :: 'b' :: rest => basedInteger? 2 rest
  | text => do
    let (negative, text) := takeSign text
    let (digits, rest) ← decimalDigits? text
    return (← boundedInteger? negative (valueOf 10 digits), rest)

/-- The least magnitude that is rounded to infinity in double precision. -/
def infiniteFrom : Nat := Nat.pow 2 1024 - Nat.pow 2 970

/-- Whether `mantissa * 10 ^ exponent` is too large for double precision. -/
def overflows (mantissa : Nat) (exponent : Int) : Bool :=
  let magnitude : Int := (Nat.toDigits 10 mantissa).length + exponent
  if mantissa = 0 || magnitude < 300 then false
  else if 310 < magnitude then true
  else if 0 ≤ exponent then infiniteFrom ≤ mantissa * Nat.pow 10 exponent.toNat
  else infiniteFrom * Nat.pow 10 (-exponent).toNat ≤ mantissa

/-- The exponent of a number. -/
def exponent? : List Char → Option (Int × List Char)
  | mark :: text => do
    if mark == 'e' || mark == 'E' then
      let (negative, text) := takeSign text
      let (digits, rest) ← digits? Text.isDigit text
      let value : Int := valueOf 10 digits
      return (if negative then -value else value, rest)
    else none
  | [] => none

/-- A number with a fraction or an exponent, or one that is not finite. -/
def fraction? (text : List Char) : Option (Value × List Char) :=
  let (negative, unsigned) := takeSign text
  match unsigned with
  | 'i' :: 'n' :: 'f' :: rest => some (.fraction, rest)
  | 'n' :: 'a' :: 'n' :: rest => some (.fraction, rest)
  | unsigned => do
    let (whole, rest) ← decimalDigits? unsigned
    let finish := fun (decimals : List Char) (exponent : Int) (rest : List Char) =>
      let mantissa := valueOf 10 (whole ++ decimals)
      if !negative && overflows mantissa (exponent - decimals.length) then none
      else some (Value.fraction, rest)
    match rest with
    | '.' :: rest =>
      let (decimals, rest) ← digits? Text.isDigit rest
      match exponent? rest with
      | some (exponent, rest) => finish decimals exponent rest
      | none => finish decimals 0 rest
    | rest =>
      let (exponent, rest) ← exponent? rest
      finish [] exponent rest

/-- A number of a fixed count of digits, within bounds. -/
def fixed? (count least most : Nat) (text : List Char) : Option (Nat × List Char) := do
  let digits := text.take count
  if digits.length = count && digits.all Text.isDigit then
    let value := Text.digitsValue digits
    if least ≤ value && value ≤ most then return (value, text.drop count) else none
  else none

/-- The text after a given character. -/
def mark? (mark : Char) : List Char → Option (List Char)
  | c :: rest => if c == mark then some rest else none
  | [] => none

/-- How many days a month has. -/
def daysIn (year month : Nat) : Nat :=
  if month = 2 then
    if year % 4 = 0 && (year % 100 != 0 || year % 400 = 0) then 29 else 28
  else if month = 4 || month = 6 || month = 9 || month = 11 then 30
  else 31

/-- A number written with at least a count of digits. -/
def padded (count value : Nat) : List Char :=
  let digits := Nat.toDigits 10 value
  List.replicate (count - digits.length) '0' ++ digits

/-- A date, in its usual form. -/
def date? (text : List Char) : Option (List Char × List Char) := do
  let (year, rest) ← fixed? 4 0 9999 text
  let (month, rest) ← (mark? '-' rest).bind (fixed? 2 1 12)
  let (day, rest) ← (mark? '-' rest).bind (fixed? 2 1 (daysIn year month))
  return (padded 4 year ++ '-' :: padded 2 month ++ '-' :: padded 2 day, rest)

/-- The part of a second that follows a time, in its usual form. -/
def subsecond : List Char → List Char × List Char
  | '.' :: rest =>
    let digits := rest.takeWhile Text.isDigit
    if digits.isEmpty then ([], '.' :: rest)
    else
      let kept := (digits.take 9).reverse.dropWhile (· == '0')
      (if kept.isEmpty then [] else '.' :: kept.reverse, rest.dropWhile Text.isDigit)
  | text => ([], text)

/-- A time of day, in its usual form. -/
def time? (text : List Char) : Option (List Char × List Char) := do
  let (hour, rest) ← fixed? 2 0 23 text
  let (minute, rest) ← (mark? ':' rest).bind (fixed? 2 0 59)
  let (second, rest) ← (mark? ':' rest).bind (fixed? 2 0 60)
  let (part, rest) := subsecond rest
  return (padded 2 hour ++ ':' :: padded 2 minute ++ ':' :: padded 2 second ++ part, rest)

/-- The distance from universal time that may follow a time, in its usual form. -/
def offset? : List Char → Option (List Char × List Char)
  | 'Z' :: rest => some (['Z'], rest)
  | 'z' :: rest => some (['Z'], rest)
  | sign :: rest =>
    if sign == '+' || sign == '-' then do
      let (hour, rest) ← fixed? 2 0 23 rest
      let (minute, rest) ← (mark? ':' rest).bind (fixed? 2 0 59)
      let sign := if hour + minute = 0 then '+' else sign
      return (sign :: padded 2 hour ++ ':' :: padded 2 minute, rest)
    else some ([], sign :: rest)
  | [] => some ([], [])

/-- A date, a time, or both. -/
def moment? (text : List Char) : Option (Value × List Char) :=
  let moment := fun (written : List Char) => Value.moment (String.ofList written)
  match date? text with
  | none => (time? text).map fun (time, rest) => (moment time, rest)
  | some (date, rest) =>
    match rest with
    | separator :: after =>
      let isSeparator := separator == 'T' || separator == 't' || separator == ' '
      match if isSeparator then time? after else none with
      | some (time, rest) =>
        (offset? rest).map fun (offset, rest) => (moment (date ++ 'T' :: time ++ offset), rest)
      | none => some (moment date, separator :: after)
    | [] => some (moment date, [])

/-- A value that is neither a string, an array nor a table. -/
def plain? (text : List Char) : Option (Value × List Char) :=
  match text with
  | 't' :: 'r' :: 'u' :: 'e' :: rest => some (.boolean true, rest)
  | 'f' :: 'a' :: 'l' :: 's' :: 'e' :: rest => some (.boolean false, rest)
  | text => moment? text <|> fraction? text <|> integer? text

end Toml
end DebugBridge
