import DebugBridge.Protocol.Element

/-!
Reading of packets from their text.  The text is cut into tokens: tags, runs of text, character
data sections, and asides (comments, declarations and instructions).  Tags are then matched into
the single element that the text holds; only predefined and numeric references stand for other
characters, and the blanks between the children of an element are no text of it.
-/

namespace DebugBridge
namespace Markup

/-- Why a text holds no element. -/
inductive Fault where
  /-- The text breaks the rules of markup. -/
  | malformed
  /-- An element is never closed. -/
  | unclosed (name : String)
  /-- There is no element. -/
  | rootless
  deriving DecidableEq, Repr

/-- Characters that separate the parts of a tag. -/
def isSeparator (c : Char) : Bool := c == ' ' || c == '\t' || c == '\r' || c == '\n'

/-- The text before the first occurrence of a mark, and what follows it. -/
def splitAfter (mark : List Char) : List Char → Option (List Char × List Char)
  | [] => if mark.isEmpty then some ([], []) else none
  | c :: rest =>
    match Text.afterStart mark (c :: rest) with
    | some after => some ([], after)
    | none => (splitAfter mark rest).map fun (before, after) => (c :: before, after)

/-- The inside of a tag, up to the first closing bracket that no quotes enclose, and what follows
it; `quote` is the quote that is open. -/
def tagBody (quote : Option Char) : List Char → Option (List Char × List Char)
  | [] => none
  | c :: rest =>
    let go := fun quote => (tagBody quote rest).map fun (before, after) => (c :: before, after)
    match quote with
    | some q => go (if c == q then none else some q)
    | none =>
      if c == '>' then some ([], rest)
      else go (if c == '\x22' || c == '\x27' then some c else none)

/-- The inside of a declaration, up to the closing bracket that matches its opening one, and what
follows it; `depth` counts the brackets that are open. -/
def declarationBody (depth : Nat) : List Char → Option (List Char × List Char)
  | [] => none
  | c :: rest =>
    let go := fun depth =>
      (declarationBody depth rest).map fun (before, after) => (c :: before, after)
    if c == '<' then go (depth + 1)
    else if c == '>' then if depth == 0 then some ([], rest) else go (depth - 1)
    else go depth

/-- A token. -/
inductive Token where
  /-- A start tag: its inside. -/
  | start (inside : List Char)
  /-- The tag of an element without content: its inside without the slash. -/
  | empty (inside : List Char)
  /-- An end tag: its name. -/
  | close (name : List Char)
  /-- Text with its references. -/
  | text (raw : List Char)
  /-- The inside of a character data section. -/
  | data (raw : List Char)
  /-- A comment, declaration or instruction. -/
  | aside
  deriving DecidableEq, Repr

/-- What follows a beginning of a text, capitals or not; `start` is in lower case. -/
def afterStartIgnoringCase (start text : List Char) : Option (List Char) :=
  if (text.take start.length).map Char.toLower == start then some (text.drop start.length) else none

/-- The token that starts with an opening bracket and an exclamation mark.  Only the word of a
declaration may be in capitals or not. -/
def bangToken? (text : List Char) : Option (Token × List Char) :=
  match Text.afterStart ['-', '-'] text with
  | some body => (splitAfter ['-', '-', '>'] body).map fun (_, rest) => (.aside, rest)
  | none =>
    match Text.afterStart "[CDATA[".toList text with
    | some body => (splitAfter [']', ']', '>'] body).map fun (raw, rest) => (.data raw, rest)
    | none => do
      let body ← afterStartIgnoringCase "doctype".toList text
      let (inside, rest) ← declarationBody 0 body
      if inside.all isSeparator then none else some (.aside, rest)

/-- The token that starts with an opening bracket. -/
def tagToken? (text : List Char) : Option (Token × List Char) :=
  match text with
  | [] => none
  | '!' :: more => bangToken? more
  | '?' :: more =>
    if more.head? == some '>' then none
    else (splitAfter ['?', '>'] more).map fun (_, rest) => (.aside, rest)
  | '/' :: more =>
    (tagBody none more).map fun (inside, rest) =>
      let name := Text.dropEndWhile isSeparator inside
      (.close (if name.isEmpty then inside else name), rest)
  | text =>
    (tagBody none text).map fun (inside, rest) =>
      match Text.beforeEnd ['/'] inside with
      | some inside => (.empty inside, rest)
      | none => (.start inside, rest)

/-- The token at the head of a text that begins with `c`, and what follows it. -/
def token? (c : Char) (text : List Char) : Option (Token × List Char) :=
  if c == '<' then tagToken? text
  else
    some (.text (c :: text.takeWhile (· != '<')), text.dropWhile (· != '<'))

theorem length_afterStart {start text after : List Char}
    (eq : Text.afterStart start text = some after) : after.length ≤ text.length := by
  induction start generalizing text with
  | nil =>
    simp only [Text.afterStart, Option.some.injEq] at eq
    simp [eq]
  | cons a start ih =>
    cases text with
    | nil => simp [Text.afterStart] at eq
    | cons c text =>
      simp only [Text.afterStart] at eq
      split at eq
      · have := ih eq
        simp only [List.length_cons]
        omega
      · simp at eq

theorem length_splitAfter {mark text before after : List Char}
    (eq : splitAfter mark text = some (before, after)) : after.length ≤ text.length := by
  induction text generalizing before with
  | nil =>
    simp only [splitAfter] at eq
    split at eq
    · simp only [Option.some.injEq, Prod.mk.injEq] at eq
      simp [← eq.2]
    · simp at eq
  | cons c text ih =>
    simp only [splitAfter] at eq
    split at eq
    · rename_i found
      simp only [Option.some.injEq, Prod.mk.injEq] at eq
      exact eq.2 ▸ length_afterStart found
    · simp only [Option.map_eq_some_iff, Prod.exists, Prod.mk.injEq] at eq
      obtain ⟨inner, last, found, _, rfl⟩ := eq
      have := ih found
      simp only [List.length_cons]
      omega

theorem length_tagBody {quote : Option Char} {text before after : List Char}
    (eq : tagBody quote text = some (before, after)) : after.length ≤ text.length := by
  induction text generalizing quote before with
  | nil => simp [tagBody] at eq
  | cons c text ih =>
    have go : ∀ quote, ((tagBody quote text).map fun (before, after) => (c :: before, after)) =
        some (before, after) → after.length ≤ (c :: text).length := by
      intro quote eq
      simp only [Option.map_eq_some_iff, Prod.exists, Prod.mk.injEq] at eq
      obtain ⟨inner, last, found, _, rfl⟩ := eq
      have := ih found
      simp only [List.length_cons]
      omega
    simp only [tagBody] at eq
    split at eq
    · exact go _ eq
    · split at eq
      · simp only [Option.some.injEq, Prod.mk.injEq] at eq
        simp [← eq.2]
      · exact go _ eq

theorem length_declarationBody {depth : Nat} {text before after : List Char}
    (eq : declarationBody depth text = some (before, after)) : after.length ≤ text.length := by
  induction text generalizing depth before with
  | nil => simp [declarationBody] at eq
  | cons c text ih =>
    have go : ∀ depth, ((declarationBody depth text).map fun (before, after) =>
        (c :: before, after)) = some (before, after) → after.length ≤ (c :: text).length := by
      intro depth eq
      simp only [Option.map_eq_some_iff, Prod.exists, Prod.mk.injEq] at eq
      obtain ⟨inner, last, found, _, rfl⟩ := eq
      have := ih found
      simp only [List.length_cons]
      omega
    simp only [declarationBody] at eq
    split at eq
    · exact go _ eq
    · split at eq
      · split at eq
        · simp only [Option.some.injEq, Prod.mk.injEq] at eq
          simp [← eq.2]
        · exact go _ eq
      · exact go _ eq

theorem length_bangToken? {text rest : List Char} {token : Token}
    (eq : bangToken? text = some (token, rest)) : rest.length ≤ text.length := by
  unfold bangToken? at eq
  split at eq
  · rename_i body start
    simp only [Option.map_eq_some_iff, Prod.exists, Prod.mk.injEq] at eq
    obtain ⟨_, _, found, _, rfl⟩ := eq
    exact Nat.le_trans (length_splitAfter found) (length_afterStart start)
  · split at eq
    · rename_i body start
      simp only [Option.map_eq_some_iff, Prod.exists, Prod.mk.injEq] at eq
      obtain ⟨_, _, found, _, rfl⟩ := eq
      exact Nat.le_trans (length_splitAfter found) (length_afterStart start)
    · simp only [Option.bind_eq_bind, Option.bind_eq_some_iff, Prod.exists] at eq
      obtain ⟨body, start, inside, last, found, eq⟩ := eq
      simp only [afterStartIgnoringCase, Option.ite_none_right_eq_some, Option.some.injEq] at start
      split at eq
      · simp at eq
      · simp only [Option.some.injEq, Prod.mk.injEq] at eq
        obtain ⟨_, rfl⟩ := eq
        refine Nat.le_trans (length_declarationBody found) ?_
        simp only [← start.2, List.length_drop]
        omega

theorem length_tagToken? {text rest : List Char} {token : Token}
    (eq : tagToken? text = some (token, rest)) : rest.length ≤ text.length := by
  unfold tagToken? at eq
  split at eq
  · simp at eq
  · have := length_bangToken? eq
    simp only [List.length_cons]
    omega
  · split at eq
    · simp at eq
    · simp only [Option.map_eq_some_iff, Prod.exists, Prod.mk.injEq] at eq
      obtain ⟨_, _, found, _, rfl⟩ := eq
      have := length_splitAfter found
      simp only [List.length_cons]
      omega
  · simp only [Option.map_eq_some_iff, Prod.exists, Prod.mk.injEq] at eq
    obtain ⟨_, _, found, _, rfl⟩ := eq
    have := length_tagBody found
    simp only [List.length_cons]
    omega
  · simp only [Option.map_eq_some_iff, Prod.exists] at eq
    obtain ⟨_, _, found, eq⟩ := eq
    have := length_tagBody found
    split at eq <;> (simp only [Prod.mk.injEq] at eq; obtain ⟨_, rfl⟩ := eq; omega)

/-- A token is not empty: what follows it is shorter. -/
theorem length_token? {c : Char} {text rest : List Char} {token : Token}
    (eq : token? c text = some (token, rest)) : rest.length ≤ text.length := by
  unfold token? at eq
  split at eq
  · exact length_tagToken? eq
  · simp only [Option.some.injEq, Prod.mk.injEq] at eq
    obtain ⟨_, rfl⟩ := eq
    exact (List.dropWhile_suffix _).length_le

set_option linter.unusedVariables false in
/-- The tokens of a text. -/
def tokens? : List Char → Option (List Token)
  | [] => some []
  | c :: text =>
    match eq : token? c text with
    | none => none
    | some (token, rest) => (tokens? rest).map (token :: ·)
termination_by text => text.length
decreasing_by
  have := length_token? eq
  simp only [List.length_cons]
  omega

/-- The value of a hexadecimal digit. -/
def hexDigit? (c : Char) : Option Nat :=
  if Text.isDigit c then some (c.toNat - 48)
  else if 'a' ≤ c && c ≤ 'f' then some (c.toNat - 87)
  else if 'A' ≤ c && c ≤ 'F' then some (c.toNat - 55)
  else none

/-- The value of a hexadecimal numeral. -/
def hexValue? (digits : List Char) : Option Nat :=
  if digits.isEmpty then none
  else digits.foldlM (fun value c => (hexDigit? c).map (value * 16 + ·)) 0

/-- The character with a code point other than zero. -/
def charOf? (code : Nat) : Option Char :=
  if code != 0 && code.isValidChar then some (Char.ofNat code) else none

/-- What a reference stands for. -/
def reference? (name : List Char) : Option Char :=
  match name with
  | '#' :: 'x' :: digits => (hexValue? digits).bind charOf?
  | '#' :: digits => (Text.decimal? digits).bind charOf?
  | ['l', 't'] => some '<'
  | ['g', 't'] => some '>'
  | ['a', 'm', 'p'] => some '&'
  | ['a', 'p', 'o', 's'] => some '\x27'
  | ['q', 'u', 'o', 't'] => some '\x22'
  | _ => none

/-- A text with its references replaced; `pending` is the reversed name of a reference that is
being read. -/
def unescapeFrom (pending : Option (List Char)) : List Char → Option (List Char)
  | [] => if pending.isNone then some [] else none
  | c :: rest =>
    match pending with
    | none =>
      if c == '&' then unescapeFrom (some []) rest else (unescapeFrom none rest).map (c :: ·)
    | some name =>
      if c == ';' then do
        let value ← reference? name.reverse
        return value :: (← unescapeFrom none rest)
      else if c == '&' then none
      else unescapeFrom (some (c :: name)) rest

/-- A text with its references replaced. -/
def unescape? (raw : List Char) : Option (List Char) := unescapeFrom none raw

/-- Characters after the first one of a key. -/
def isKeyChar (c : Char) : Bool := !(c == '=' || isSeparator c)

/-- The key of the attribute at the head of a text, and what follows its equals sign. -/
def attributeKey? (c : Char) (text : List Char) : Option (List Char × List Char) :=
  match (text.dropWhile isKeyChar).dropWhile isSeparator with
  | '=' :: rest => some (c :: text.takeWhile isKeyChar, rest)
  | _ => none

/-- The quoted value at the head of a text, and what follows its closing quote. -/
def attributeValue? (text : List Char) : Option (List Char × List Char) :=
  match text.dropWhile isSeparator with
  | [] => none
  | quote :: rest =>
    if quote == '\x22' || quote == '\x27' then
      match rest.dropWhile (· != quote) with
      | _ :: after => some (rest.takeWhile (· != quote), after)
      | [] => none
    else none

theorem length_attributeKey? {c : Char} {text key rest : List Char}
    (eq : attributeKey? c text = some (key, rest)) : rest.length ≤ text.length := by
  unfold attributeKey? at eq
  split at eq
  · rename_i after found
    simp only [Option.some.injEq, Prod.mk.injEq] at eq
    obtain ⟨_, rfl⟩ := eq
    have inner := (List.dropWhile_suffix isSeparator : _ <:+ text.dropWhile isKeyChar).length_le
    have outer := (List.dropWhile_suffix isKeyChar : _ <:+ text).length_le
    rw [found] at inner
    simp only [List.length_cons] at inner
    omega
  · simp at eq

theorem length_attributeValue? {text value rest : List Char}
    (eq : attributeValue? text = some (value, rest)) : rest.length ≤ text.length := by
  unfold attributeValue? at eq
  split at eq
  · simp at eq
  · rename_i quote inside found
    split at eq
    · split at eq
      · rename_i _ after closing
        simp only [Option.some.injEq, Prod.mk.injEq] at eq
        obtain ⟨_, rfl⟩ := eq
        have outer := (List.dropWhile_suffix isSeparator : _ <:+ text).length_le
        have inner := (List.dropWhile_suffix (· != quote) : _ <:+ inside).length_le
        rw [found] at outer
        rw [closing] at inner
        simp only [List.length_cons] at outer inner
        omega
      · simp at eq
    · simp at eq

set_option linter.unusedVariables false in
/-- The attributes in the rest of a tag; `keys` are those that were read before.  No key may occur
twice. -/
def attributesFrom? (keys : List (List Char)) : List Char → Option (List (String × String))
  | [] => some []
  | c :: text =>
    if isSeparator c then attributesFrom? keys text
    else
      match key : attributeKey? c text with
      | none => none
      | some (name, afterKey) =>
        if keys.contains name then none
        else
          match value : attributeValue? afterKey with
          | none => none
          | some (raw, rest) => do
            let value ← unescape? raw
            let others ← attributesFrom? (name :: keys) rest
            return (String.ofList name, String.ofList value) :: others
termination_by text => text.length
decreasing_by
  · simp only [List.length_cons]
    omega
  · have := length_attributeKey? key
    have := length_attributeValue? value
    simp only [List.length_cons]
    omega

/-- An element whose start tag was read. -/
structure Frame where
  /-- Name of the element. -/
  name : List Char
  /-- Its attributes. -/
  attributes : List (String × String)
  /-- Its children so far, the last one first. -/
  children : List Element
  /-- Its text so far. -/
  text : List Char

/-- The frame of a tag from its inside. -/
def frame? (inside : List Char) : Option Frame := do
  let attributes ← attributesFrom? [] (inside.dropWhile fun c => !isSeparator c)
  let name := inside.takeWhile fun c => !isSeparator c
  return { name, attributes, children := [], text := [] }

/-- The element of a frame that is complete.  Blanks between children are dropped. -/
def Frame.close (frame : Frame) : Element :=
  let text := if !frame.children.isEmpty && Text.allBlank frame.text then [] else frame.text
  { name := String.ofList frame.name, attributes := frame.attributes
    children := frame.children.reverse, text := String.ofList text }

/-- What has been read of a document. -/
structure Document where
  /-- Open elements, the innermost first. -/
  stack : List Frame
  /-- The first complete element outside all others. -/
  root : Option Element

/-- Adds a complete element: to the innermost open one, or as the root if there is none yet. -/
def Document.attach (document : Document) (element : Element) : Document :=
  match document.stack with
  | [] => { document with root := document.root <|> some element }
  | frame :: outer =>
    { document with stack := { frame with children := element :: frame.children } :: outer }

/-- Adds text to the innermost open element. -/
def Document.addText (document : Document) (text : List Char) : Document :=
  match document.stack with
  | [] => document
  | frame :: outer => { document with stack := { frame with text := frame.text ++ text } :: outer }

/-- The document after one more token. -/
def Document.step? (document : Document) (token : Token) : Option Document :=
  match token with
  | .start inside => (frame? inside).map fun frame =>
      { document with stack := frame :: document.stack }
  | .empty inside => (frame? inside).map fun frame => document.attach frame.close
  | .close name =>
    match document.stack with
    | [] => none
    | frame :: outer =>
      if frame.name == name then some ({ document with stack := outer }.attach frame.close)
      else none
  | .text raw =>
    if document.stack.isEmpty then some document else (unescape? raw).map document.addText
  | .data raw => some (document.addText raw)
  | .aside => some document

/-- The single element that a text holds. -/
def parse (text : List Char) : Except Fault Element :=
  match (tokens? text).bind fun tokens => tokens.foldlM Document.step? ⟨[], none⟩ with
  | none => .error .malformed
  | some ⟨frame :: _, _⟩ => .error (.unclosed (String.ofList frame.name))
  | some ⟨[], none⟩ => .error .rootless
  | some ⟨[], some root⟩ => .ok root

end Markup
end DebugBridge
