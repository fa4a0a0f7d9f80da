import DebugBridge.Proofs.Protocol.Spelling
import DebugBridge.Proofs.Text.Blank

/-!
# Tags as they are written

The inside of a tag is a name with attributes, each of which has its value in quotes of its choice;
blanks may stand between these parts.  A closing bracket inside quotes does not end the tag, and
what is read from the inside is the name and the attributes in order.
-/

namespace DebugBridge
namespace Markup

/-- Blanks between the parts of a tag. -/
structure Blanks where
  /-- The blanks. -/
  text : List Char
  /-- Nothing else is there. -/
  blank : ∀ c ∈ text, isSeparator c = true

/-- Characters that may stand in names. -/
def isNameChar (c : Char) : Bool := c.isAlphanum || c == '_' || c == '-' || c == '.' || c == ':'

/-- A name of an element or an attribute. -/
structure Name where
  /-- Its first character. -/
  first : Char
  /-- The others. -/
  rest : List Char
  /-- Names begin with a letter. -/
  letter : first.isAlpha = true
  /-- The others are letters, digits or some marks. -/
  proper : ∀ c ∈ rest, isNameChar c = true

/-- The name as it is written. -/
def Name.print (name : Name) : List Char := name.first :: name.rest

/-- The quotes around a value. -/
inductive Quote where
  /-- A single one at each end. -/
  | single
  /-- A double one at each end. -/
  | double

/-- The quote as a character. -/
def Quote.char : Quote → Char
  | .single => '\x27'
  | .double => '\x22'

/-- An attribute with its value. -/
structure Attribute where
  /-- What stands in front of it. -/
  gap : Blanks
  /-- At least one blank is there. -/
  apart : gap.text ≠ []
  /-- Its name. -/
  name : Name
  /-- What stands between the name and the equals sign. -/
  before : Blanks
  /-- What stands between the equals sign and the value. -/
  after : Blanks
  /-- The quotes around the value. -/
  quote : Quote
  /-- The value. -/
  value : List (Letter ['<', '&', quote.char])

namespace Attribute

/-- The value in its quotes. -/
def quoted (attr : Attribute) : List Char :=
  attr.quote.char :: (spelled attr.value ++ [attr.quote.char])

/-- The attribute as it is written. -/
def print (attr : Attribute) : List Char :=
  attr.gap.text ++ (attr.name.print ++ (attr.before.text ++
    '=' :: (attr.after.text ++ attr.quoted)))

/-- The name with the value that is meant. -/
def entry (attr : Attribute) : String × String :=
  (String.ofList attr.name.print, String.ofList (meant attr.value))

end Attribute

/-- A tag without the brackets. -/
structure Tag where
  /-- Name of the element. -/
  name : Name
  /-- Its attributes. -/
  attributes : List Attribute
  /-- No two of them have one name. -/
  distinct : (attributes.map (·.name.print)).Nodup
  /-- What stands behind them. -/
  gap : Blanks

/-- The tag as it is written. -/
def Tag.print (tag : Tag) : List Char :=
  tag.name.print ++ (tag.attributes.flatMap Attribute.print ++ tag.gap.text)

/-! ## Kinds of characters -/

theorem isNameChar_of_isAlpha {c : Char} (letter : c.isAlpha = true) : isNameChar c = true := by
  simp [isNameChar, Char.isAlphanum, letter]

theorem Name.isNameChar_of_mem {name : Name} {c : Char} (member : c ∈ name.print) :
    isNameChar c = true := by
  rcases List.mem_cons.1 member with rfl | member
  · exact isNameChar_of_isAlpha name.letter
  · exact name.proper c member

theorem ne_of_isNameChar {c other : Char} (proper : isNameChar c = true)
    (improper : isNameChar other = false) : c ≠ other := by
  rintro rfl
  exact Bool.false_ne_true (improper.symm.trans proper)

theorem isSeparator_iff (c : Char) :
    isSeparator c = true ↔ c = ' ' ∨ c = '\t' ∨ c = '\r' ∨ c = '\n' := by
  simp [isSeparator, or_assoc]

theorem isSeparator_of_isNameChar {c : Char} (proper : isNameChar c = true) :
    isSeparator c = false := by
  rw [Bool.eq_false_iff, ne_eq, isSeparator_iff]
  rintro (rfl | rfl | rfl | rfl) <;> cases proper

theorem isKeyChar_of_isNameChar {c : Char} (proper : isNameChar c = true) :
    isKeyChar c = true := by
  rw [isKeyChar, isSeparator_of_isNameChar proper,
    beq_eq_false_iff_ne.2 (ne_of_isNameChar proper rfl)]
  rfl

theorem Quote.isSeparator_char (quote : Quote) : isSeparator quote.char = false := by
  cases quote <;> rfl

/-- In what is written for a value, its quote does not occur. -/
theorem Attribute.not_mem_spelled (attr : Attribute) :
    attr.quote.char ∉ spelled attr.value := by
  refine Markup.not_mem_spelled (by simp) ?_ ?_ ?_ attr.value <;>
    cases attr.quote <;> decide

/-! ## The end of a tag -/

/-- A part of a tag that leaves no quotes open and does not end it. -/
def Passes (part : List Char) : Prop :=
  ∀ rest, tagBody none (part ++ rest) =
    (tagBody none rest).map fun (inside, after) => (part ++ inside, after)

theorem Passes.nil : Passes [] := fun rest => by
  rw [List.nil_append]
  exact Option.map_id'.symm

theorem Passes.append {front back : List Char} (first : Passes front) (second : Passes back) :
    Passes (front ++ back) := fun rest => by
  rw [List.append_assoc, first, second, Option.map_map]
  simp [Function.comp_def]

theorem Passes.flatMap {α : Type} {items : List α} {print : α → List Char}
    (each : ∀ item ∈ items, Passes (print item)) : Passes (items.flatMap print) := by
  induction items with
  | nil => exact .nil
  | cons item items ih =>
      rw [List.forall_mem_cons] at each
      exact each.1.append (ih each.2)

theorem passes_of_plain {part : List Char}
    (plain : ∀ c ∈ part, c ≠ '>' ∧ c ≠ '\x22' ∧ c ≠ '\x27') : Passes part := fun rest => by
  induction part with
  | nil => exact Passes.nil rest
  | cons c part ih =>
      obtain ⟨⟨bracket, double, single⟩, others⟩ := List.forall_mem_cons.1 plain
      rw [List.cons_append, tagBody]
      simp [bracket, double, single, ih others, Function.comp_def]

/-- Quotes are passed over with what they enclose. -/
theorem passes_quoted (quote : Quote) {value : List Char} (free : quote.char ∉ value) :
    Passes (quote.char :: (value ++ [quote.char])) := fun rest => by
  have inner : tagBody (some quote.char) (value ++ quote.char :: rest) =
      (tagBody none rest).map fun (inside, after) =>
        (value ++ quote.char :: inside, after) := by
    induction value with
    | nil => simp [tagBody]
    | cons c value ih =>
        rw [List.mem_cons, not_or] at free
        have other : (c == quote.char) = false := beq_eq_false_iff_ne.2 (Ne.symm free.1)
        simp [tagBody, other, ih free.2, Function.comp_def]
  have opens : (quote.char == '>') = false ∧
      (quote.char == '\x22' || quote.char == '\x27') = true := by
    cases quote <;> decide
  rw [List.cons_append, List.append_assoc, List.singleton_append, tagBody]
  simp only [opens, inner, if_pos, if_neg Bool.false_ne_true, Option.map_map]
  simp [Function.comp_def]

theorem passes_blanks (blanks : Blanks) : Passes blanks.text := by
  refine passes_of_plain fun c member => ?_
  rcases (isSeparator_iff c).1 (blanks.blank c member) with rfl | rfl | rfl | rfl <;> decide

theorem passes_name (name : Name) : Passes name.print :=
  passes_of_plain fun _ member =>
    have proper := Name.isNameChar_of_mem member
    ⟨ne_of_isNameChar proper rfl, ne_of_isNameChar proper rfl, ne_of_isNameChar proper rfl⟩

theorem passes_attribute (attr : Attribute) : Passes attr.print := by
  have sign : Passes ['='] := passes_of_plain (List.forall_mem_singleton.2 (by decide))
  have value : Passes attr.quoted := passes_quoted _ attr.not_mem_spelled
  exact (passes_blanks _).append ((passes_name _).append ((passes_blanks _).append
    (sign.append ((passes_blanks _).append value))))

theorem passes_tag (tag : Tag) : Passes tag.print :=
  (passes_name _).append ((Passes.flatMap fun attr _ => passes_attribute attr).append
    (passes_blanks _))

/-- A part of a tag with the bracket behind it. -/
theorem Passes.tagBody_close {part : List Char} (passes : Passes part) (rest : List Char) :
    tagBody none (part ++ '>' :: rest) = some (part, rest) := by
  rw [passes, tagBody]
  simp

/-! ## The attributes of a tag -/

theorem attributesFrom?_blanks (keys : List (List Char)) (blanks : Blanks) (text : List Char) :
    attributesFrom? keys (blanks.text ++ text) = attributesFrom? keys text := by
  obtain ⟨blanks, blank⟩ := blanks
  induction blanks with
  | nil => rfl
  | cons c blanks ih =>
      rw [List.forall_mem_cons] at blank
      rw [List.cons_append, attributesFrom?, if_pos blank.1]
      exact ih blank.2

theorem dropWhile_blanks (blanks : Blanks) (text : List Char) :
    (blanks.text ++ text).dropWhile isSeparator = text.dropWhile isSeparator :=
  List.dropWhile_append_of_pos blanks.blank

/-- A name ends where blanks or an equals sign begin. -/
theorem attributeKey?_name (name : Name) (blanks : Blanks) (rest : List Char) :
    attributeKey? name.first (name.rest ++ (blanks.text ++ '=' :: rest)) =
      some (name.print, rest) := by
  have key : ∀ c ∈ name.rest, isKeyChar c = true :=
    fun c member => isKeyChar_of_isNameChar (name.proper c member)
  have stop : (blanks.text ++ '=' :: rest).takeWhile isKeyChar = [] ∧
      (blanks.text ++ '=' :: rest).dropWhile isKeyChar = blanks.text ++ '=' :: rest := by
    cases written : blanks.text with
    | nil => exact ⟨rfl, rfl⟩
    | cons c others =>
        have blank : isKeyChar c = false := by
          rw [isKeyChar, blanks.blank c (written ▸ List.mem_cons_self), Bool.or_true]
          rfl
        exact ⟨List.takeWhile_cons_of_neg (by simp [blank]),
          List.dropWhile_cons_of_neg (by simp [blank])⟩
  rw [attributeKey?, List.takeWhile_append_of_pos key, List.dropWhile_append_of_pos key, stop.1,
    stop.2, dropWhile_blanks, List.append_nil]
  rfl

theorem attributeValue?_quoted (attr : Attribute) (rest : List Char) :
    attributeValue? (attr.after.text ++ (attr.quoted ++ rest)) =
      some (spelled attr.value, rest) := by
  have inside : ∀ c ∈ spelled attr.value, (c != attr.quote.char) = true := by
    intro c member
    rw [bne_iff_ne]
    rintro rfl
    exact attr.not_mem_spelled member
  have opens : (attr.quote.char == '\x22' || attr.quote.char == '\x27') = true := by
    cases attr.quote <;> decide
  rw [attributeValue?, dropWhile_blanks, Attribute.quoted, List.cons_append,
    List.dropWhile_cons_of_neg (by simp [Quote.isSeparator_char])]
  simp only [opens, if_pos, List.append_assoc, List.singleton_append,
    List.dropWhile_append_of_pos inside, List.takeWhile_append_of_pos inside]
  simp

theorem Attribute.print_append (attr : Attribute) (rest : List Char) :
    attr.print ++ rest = attr.gap.text ++ (attr.name.first :: (attr.name.rest ++
      (attr.before.text ++ '=' :: (attr.after.text ++ (attr.quoted ++ rest))))) := by
  simp [print, Name.print]

/-- One attribute is read, and then the others. -/
theorem attributesFrom?_print {keys : List (List Char)} (attr : Attribute)
    (fresh : attr.name.print ∉ keys) (rest : List Char) :
    attributesFrom? keys (attr.print ++ rest) =
      (attributesFrom? (attr.name.print :: keys) rest).map (attr.entry :: ·) := by
  have letter := isSeparator_of_isNameChar (isNameChar_of_isAlpha attr.name.letter)
  have value : unescape? (spelled attr.value) = some (meant attr.value) := by
    have whole := unescape?_spelled attr.value (by simp) []
    rw [List.append_nil] at whole
    exact whole.trans (congrArg some (List.append_nil _))
  rw [Attribute.print_append, attributesFrom?_blanks, attributesFrom?, letter,
    if_neg Bool.false_ne_true]
  split
  · next none =>
    rw [attributeKey?_name] at none
    cases none
  · next name afterKey key =>
    rw [attributeKey?_name] at key
    obtain ⟨rfl, rfl⟩ := Prod.mk.inj (Option.some.inj key)
    rw [if_neg (by simpa using fresh)]
    split
    · next none =>
      rw [attributeValue?_quoted] at none
      cases none
    · next raw others found =>
      rw [attributeValue?_quoted] at found
      obtain ⟨rfl, rfl⟩ := Prod.mk.inj (Option.some.inj found)
      rw [value]
      simp only [Option.bind_eq_bind, Option.bind_some, Option.pure_def, Option.map_eq_bind]
      rfl

/-- All attributes are read in order. -/
theorem attributesFrom?_flatMap {keys : List (List Char)} {attributes : List Attribute}
    (distinct : (attributes.map (·.name.print)).Nodup)
    (fresh : ∀ attr ∈ attributes, attr.name.print ∉ keys) (gap : Blanks) :
    attributesFrom? keys (attributes.flatMap Attribute.print ++ gap.text) =
      some (attributes.map Attribute.entry) := by
  induction attributes generalizing keys with
  | nil =>
      have none := attributesFrom?_blanks keys gap []
      rw [List.append_nil] at none
      rw [List.flatMap_nil, List.nil_append, none, attributesFrom?]
      rfl
  | cons attr attributes ih =>
      rw [List.map_cons, List.nodup_cons] at distinct
      rw [List.forall_mem_cons] at fresh
      have others : ∀ other ∈ attributes, other.name.print ∉ attr.name.print :: keys := by
        intro other member
        rw [List.mem_cons, not_or]
        exact ⟨fun same => distinct.1 (same ▸ List.mem_map_of_mem member), fresh.2 other member⟩
      rw [List.flatMap_cons, List.append_assoc, attributesFrom?_print attr fresh.1,
        ih distinct.2 others]
      rfl

/-- Behind the name of a tag stands a blank, or nothing. -/
theorem head?_gap (tag : Tag) :
    ∀ c ∈ (tag.attributes.flatMap Attribute.print ++ tag.gap.text).head?, isSeparator c = true := by
  intro c member
  have blank (blanks : Blanks) (rest : List Char) (some : blanks.text ≠ [])
      (member : c ∈ (blanks.text ++ rest).head?) : isSeparator c = true := by
    rw [List.head?_append_of_ne_nil _ some] at member
    exact blanks.blank c (List.mem_of_mem_head? member)
  cases attributes : tag.attributes with
  | nil =>
      rw [attributes, List.flatMap_nil, List.nil_append] at member
      exact tag.gap.blank c (List.mem_of_mem_head? member)
  | cons attr others =>
      rw [attributes, List.flatMap_cons, List.append_assoc, Attribute.print_append] at member
      exact blank attr.gap _ attr.apart member

/-- What is read from the inside of a tag. -/
theorem frame?_print (tag : Tag) :
    frame? tag.print =
      some ⟨tag.name.print, tag.attributes.map Attribute.entry, [], []⟩ := by
  have name : ∀ c ∈ tag.name.print, (!isSeparator c) = true := fun c member => by
    rw [isSeparator_of_isNameChar (Name.isNameChar_of_mem member)]
    rfl
  have stop : (tag.attributes.flatMap Attribute.print ++ tag.gap.text).takeWhile
        (fun c => !isSeparator c) = [] ∧
      (tag.attributes.flatMap Attribute.print ++ tag.gap.text).dropWhile (fun c => !isSeparator c) =
        tag.attributes.flatMap Attribute.print ++ tag.gap.text := by
    have head := head?_gap tag
    cases written : tag.attributes.flatMap Attribute.print ++ tag.gap.text with
    | nil => exact ⟨rfl, rfl⟩
    | cons c rest =>
        have blank : isSeparator c = true := head c (written ▸ rfl)
        exact ⟨List.takeWhile_cons_of_neg (by simp [blank]),
          List.dropWhile_cons_of_neg (by simp [blank])⟩
  rw [frame?, Tag.print, List.takeWhile_append_of_pos name, List.dropWhile_append_of_pos name,
    stop.1, stop.2, List.append_nil, attributesFrom?_flatMap tag.distinct (by simp)]
  rfl

theorem Attribute.getLast?_print (attr : Attribute) :
    attr.print.getLast? = some attr.quote.char := by
  have whole : attr.print = attr.gap.text ++ (attr.name.print ++ (attr.before.text ++
      '=' :: (attr.after.text ++ attr.quote.char :: spelled attr.value))) ++
        [attr.quote.char] := by
    simp [print, quoted]
  rw [whole, List.getLast?_concat]

/-- The last character of a tag is not a slash. -/
theorem beforeEnd_print (tag : Tag) : Text.beforeEnd ['/'] tag.print = none := by
  rw [Option.eq_none_iff_forall_ne_some]
  intro rest ends
  have last : tag.print.getLast? = some '/' := by
    rw [Text.beforeEnd_eq_some.1 ends, List.getLast?_concat]
  rw [Tag.print, List.getLast?_append, List.getLast?_append, Option.or_eq_some_iff,
    Option.or_eq_some_iff, List.getLast?_flatMap] at last
  rcases last with (gap | ⟨-, attributes⟩) | ⟨-, name⟩
  · cases tag.gap.blank '/' (List.mem_of_getLast? gap)
  · obtain ⟨attr, -, quote⟩ := List.exists_of_findSome?_eq_some attributes
    rw [Attribute.getLast?_print] at quote
    cases written : attr.quote <;> simp [written, Quote.char] at quote
  · cases Name.isNameChar_of_mem (List.mem_of_getLast? name)

end Markup
end DebugBridge
