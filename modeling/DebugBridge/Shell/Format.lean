import DebugBridge.Text.Number
import DebugBridge.Text.Utf8

/-!
Output with escapes and formats.  A backslash sequence stands for a byte; a conversion in a format
takes the next argument, and a format is used again as long as there are arguments left.
-/

namespace DebugBridge
namespace Shell

/-- The value of octal digits. -/
def octalValue (digits : List Char) : Nat :=
  digits.foldl (fun value c => value * 8 + (c.toNat - '0'.toNat)) 0

/-- Whether a character is an octal digit. -/
def isOctal (c : Char) : Bool := '0' ≤ c && c ≤ '7'

/-- What a backslash and a letter stand for. -/
def letterEscape? : Char → Option UInt8
  | 'n' => some 10
  | 't' => some 9
  | 'r' => some 13
  | 'a' => some 7
  | 'b' => some 8
  | 'f' => some 12
  | 'v' => some 11
  | '\\' => some 92
  | _ => none

/-- The bytes of a text with escapes, and whether output goes on after it.  An octal number has up
to three digits, after a zero where `zeroFirst` says so. -/
def unescape (zeroFirst : Bool) : (fuel : Nat) → List Char → List UInt8 × Bool
  | 0, _ => ([], true)
  | _, [] => ([], true)
  | fuel + 1, '\\' :: c :: rest =>
    let and := fun (bytes : List UInt8) (rest : List Char) =>
      let (others, goesOn) := unescape zeroFirst fuel rest
      (bytes ++ others, goesOn)
    if c == 'c' then ([], false)
    else
      match letterEscape? c with
      | some byte => and [byte] rest
      | none =>
        if isOctal c && (!zeroFirst || c == '0') then
          let digits := if zeroFirst then (rest.takeWhile isOctal).take 3
            else ((c :: rest).takeWhile isOctal).take 3
          let rest := if zeroFirst then rest else c :: rest
          and [UInt8.ofNat (octalValue digits)] (rest.drop digits.length)
        else and (Text.utf8 ['\\', c]) rest
  | fuel + 1, c :: rest =>
    let (others, goesOn) := unescape zeroFirst fuel rest
    (Text.utf8 [c] ++ others, goesOn)

/-- The bytes of a text in which escapes count, and whether output goes on after it. -/
def unescaped (zeroFirst : Bool) (text : String) : List UInt8 × Bool :=
  unescape zeroFirst (text.length + 1) text.toList

/-- A text brought to a width. -/
def padded (left zeros : Bool) (width : Nat) (text : List UInt8) : List UInt8 :=
  let missing := width - text.length
  if left then text ++ List.replicate missing 32
  else if zeros then
    match text with
    | 45 :: digits => 45 :: List.replicate missing 48 ++ digits
    | digits => List.replicate missing 48 ++ digits
  else List.replicate missing 32 ++ text

/-- The number that an argument stands for: a character after a quote stands for its code. -/
def formatNumber (text : String) : Int :=
  match text.toList with
  | '\x22' :: c :: _ | '\x27' :: c :: _ => c.toNat
  | '-' :: digits => -(digitsOf digits : Int)
  | '+' :: digits => digitsOf digits
  | digits => digitsOf digits
where
  /-- The value of the digits at the front. -/
  digitsOf (text : List Char) : Nat :=
    match text with
    | '0' :: 'x' :: digits => digits.foldl (fun value c =>
        value * 16 + (if Text.isDigit c then c.toNat - 48 else c.toLower.toNat - 87)) 0
    | '0' :: digits => octalValue (digits.takeWhile isOctal)
    | digits => Text.digitsValue (digits.takeWhile Text.isDigit)

/-- The bytes of an argument in a conversion, and whether output goes on after it. -/
def converted (conversion : Char) (limit : Option Nat) (argument : String) : List UInt8 × Bool :=
  let cut := fun (bytes : List UInt8) => match limit with
    | some limit => bytes.take limit
    | none => bytes
  match conversion with
  | 'd' | 'i' | 'u' => (Text.bytesOf (toString (formatNumber argument)), true)
  | 'x' => (Text.utf8 (Nat.toDigits 16 (formatNumber argument).toNat), true)
  | 'X' => (Text.utf8 ((Nat.toDigits 16 (formatNumber argument).toNat).map Char.toUpper), true)
  | 'o' => (Text.utf8 (Nat.toDigits 8 (formatNumber argument).toNat), true)
  | 'c' => ((Text.bytesOf argument).take 1, true)
  | 'b' =>
    let (bytes, goesOn) := unescaped true argument
    (cut bytes, goesOn)
  | _ => (cut (Text.bytesOf argument), true)

/-- What a format gives with some arguments, the arguments that are left, and whether output goes on
after it. -/
def formatOnce : (fuel : Nat) → List Char → List String → List UInt8 × List String × Bool
  | 0, _, arguments => ([], arguments, true)
  | _, [], arguments => ([], arguments, true)
  | fuel + 1, '%' :: '%' :: rest, arguments =>
    let (others, arguments, goesOn) := formatOnce fuel rest arguments
    (37 :: others, arguments, goesOn)
  | fuel + 1, '%' :: rest, arguments =>
    let flags := rest.takeWhile fun c => "-0+ #".toList.contains c
    let rest := rest.drop flags.length
    let width := rest.takeWhile Text.isDigit
    let rest := rest.drop width.length
    let (limit, rest) := match rest with
      | '.' :: rest =>
        (some (Text.digitsValue (rest.takeWhile Text.isDigit)), rest.dropWhile Text.isDigit)
      | rest => (none, rest)
    match rest with
    | [] => ([], arguments, true)
    | conversion :: rest =>
      let (bytes, goesOn) := converted conversion limit (arguments.headD "")
      let shown := padded (flags.contains '-') (flags.contains '0') (Text.digitsValue width) bytes
      if !goesOn then (shown, [], false)
      else
        let (others, arguments, goesOn) := formatOnce fuel rest (arguments.drop 1)
        (shown ++ others, arguments, goesOn)
  | fuel + 1, text, arguments =>
    let plain := text.takeWhile (· != '%')
    let (bytes, goesOn) := unescape false (plain.length + 1) plain
    if !goesOn then (bytes, [], false)
    else
      let (others, arguments, goesOn) := formatOnce fuel (text.drop plain.length) arguments
      (bytes ++ others, arguments, goesOn)

/-- What a format gives with some arguments, used again and again as long as it takes some. -/
def formatAll : (fuel : Nat) → String → List String → List UInt8
  | 0, _, _ => []
  | fuel + 1, format, arguments =>
    let (bytes, left, goesOn) := formatOnce (format.length + 1) format.toList arguments
    if !goesOn || left.isEmpty || left.length == arguments.length then bytes
    else bytes ++ formatAll fuel format left

end Shell
end DebugBridge
