import DebugBridge.Proofs.Protocol.Tag

/-!
# Payloads are read as they were meant

A payload is an element as it is written, with all the freedom that there is in writing: characters
are spelled in one way or the other, text stands in character data sections or outside of them,
comments stand anywhere, and an element without content has one tag or two.  Whatever was chosen,
the element that is read is the one that was meant.
-/

namespace DebugBridge
namespace Markup

/-- A text in which a mark does not occur. -/
structure Without (mark : List Char) where
  /-- The text. -/
  text : List Char
  /-- The mark does not occur in it. -/
  free : ¬ mark <:+: text

/-- A comment. -/
abbrev Comment := Without ['-', '-', '>']

/-- The comment as it is written. -/
def Comment.print (comment : Comment) : List Char :=
  ['<', '!', '-', '-'] ++ (comment.text ++ ['-', '-', '>'])

/-- A character data section. -/
abbrev CharacterData := Without [']', ']', '>']

/-- The section as it is written. -/
def CharacterData.print (data : CharacterData) : List Char :=
  ['<', '!'] ++ ("[CDATA[".toList ++ (data.text ++ [']', ']', '>']))

/-- An XML declaration. -/
abbrev Declaration := Without ['?', '>']

/-- The declaration as it is written. -/
def Declaration.print (declaration : Declaration) : List Char :=
  ['<', '?', 'x', 'm', 'l'] ++ (declaration.text ++ ['?', '>'])

namespace Tag

/-- A tag that opens an element. -/
def opening (tag : Tag) : List Char := '<' :: (tag.print ++ ['>'])

/-- A tag of an element that has no content. -/
def closed (tag : Tag) : List Char := '<' :: (tag.print ++ ['/', '>'])

/-- The tag that closes the element that was opened by a tag. -/
def closing (tag : Tag) (gap : Blanks) : List Char :=
  ['<', '/'] ++ (tag.name.print ++ (gap.text ++ ['>']))

/-- The element of a tag.  If it has children, blanks are no text. -/
def element (tag : Tag) (children : List Element) (text : List Char) : Element where
  name := String.ofList tag.name.print
  attributes := tag.attributes.map Attribute.entry
  children := children
  text := String.ofList (if !children.isEmpty && Text.allBlank text then [] else text)

end Tag

/-- What stands between the tags of an element. -/
inductive Content where
  /-- Nothing more. -/
  | nil
  /-- Text, spelled character by character. -/
  | letters (text : List (Letter ['<', '&'])) (rest : Content)
  /-- Text in a section of its own. -/
  | data (part : CharacterData) (rest : Content)
  /-- A comment. -/
  | comment (note : Comment) (rest : Content)
  /-- An element of one tag. -/
  | empty (tag : Tag) (rest : Content)
  /-- An element between two tags, with the blanks in the second one. -/
  | element (tag : Tag) (inside : Content) (gap : Blanks) (rest : Content)

namespace Content

/-- The content as it is written. -/
def print : Content → List Char
  | .nil => []
  | .letters text rest => spelled text ++ rest.print
  | .data part rest => part.print ++ rest.print
  | .comment note rest => note.print ++ rest.print
  | .empty tag rest => tag.closed ++ rest.print
  | .element tag inside gap rest =>
    tag.opening ++ (inside.print ++ (tag.closing gap ++ rest.print))

/-- The text that stands directly in it. -/
def text : Content → List Char
  | .nil => []
  | .letters text rest => meant text ++ rest.text
  | .data part rest => part.text ++ rest.text
  | .comment _ rest | .empty _ rest | .element _ _ _ rest => rest.text

/-- The elements that stand directly in it. -/
def children : Content → List Element
  | .nil => []
  | .letters _ rest | .data _ rest | .comment _ rest => rest.children
  | .empty tag rest => tag.element [] [] :: rest.children
  | .element tag inside _ rest => tag.element inside.children inside.text :: rest.children

end Content

/-- The element that a payload holds. -/
inductive Root where
  /-- An element of one tag. -/
  | empty (tag : Tag)
  /-- An element between two tags. -/
  | element (tag : Tag) (inside : Content) (gap : Blanks)

namespace Root

/-- The element alone. -/
def content : Root → Content
  | .empty tag => .empty tag .nil
  | .element tag inside gap => .element tag inside gap .nil

/-- The element that is meant. -/
def meaning : Root → Element
  | .empty tag => tag.element [] []
  | .element tag inside _ => tag.element inside.children inside.text

end Root

/-- What may stand outside of all elements. -/
inductive Aside where
  /-- Blanks. -/
  | blanks (gap : Blanks)
  /-- A comment. -/
  | comment (note : Comment)

/-- What stands there as it is written. -/
def Aside.print : Aside → List Char
  | .blanks gap => gap.text
  | .comment note => note.print

/-- A whole payload. -/
structure Payload where
  /-- Its declaration, if it has one. -/
  declaration : Option Declaration
  /-- What stands before the element. -/
  before : List Aside
  /-- The element. -/
  root : Root
  /-- What stands behind it. -/
  after : List Aside

/-- The payload as it is written. -/
def Payload.print (payload : Payload) : List Char :=
  payload.declaration.toList.flatMap Declaration.print ++
    (payload.before.flatMap Aside.print ++
      (payload.root.content.print ++ payload.after.flatMap Aside.print))

/-! ## Marks -/

/-- A mark is found where it stands, if it does not occur before. -/
theorem splitAfter_append (front : List Char) (last : Char) (once : last ∉ front)
    (text : Without (front ++ [last])) (rest : List Char) :
    splitAfter (front ++ [last]) (text.text ++ (front ++ [last] ++ rest)) =
      some (text.text, rest) := by
  obtain ⟨text, free⟩ := text
  induction text with
  | nil =>
      have found : Text.afterStart (front ++ [last]) (front ++ [last] ++ rest) = some rest :=
        Text.afterStart_eq_some.2 rfl
      cases written : front ++ [last] ++ rest with
      | nil => simp at written
      | cons c more => rw [List.nil_append, splitAfter, ← written, found]
  | cons c text ih =>
      have later : ¬ front ++ [last] <:+: text := fun inside =>
        free (inside.trans (List.suffix_cons c text).isInfix)
      have absent : Text.afterStart (front ++ [last])
          (c :: (text ++ (front ++ [last] ++ rest))) = none := by
        rw [Option.eq_none_iff_forall_ne_some]
        intro after found
        have whole := Text.afterStart_eq_some.1 found
        rcases Nat.lt_or_ge front.length (c :: text).length with long | short
        · -- The mark would lie within the text.
          refine free (List.IsPrefix.isInfix ?_)
          refine List.prefix_of_prefix_length_le ⟨after, whole.symm⟩
            ⟨front ++ [last] ++ rest, rfl⟩ ?_
          rw [List.length_append]
          exact long
        · -- Its last character would be one of those before the last.
          have here := congrArg (·[front.length]?) whole
          simp only [← List.cons_append] at here
          rw [List.getElem?_append_right short, List.append_assoc, List.append_assoc,
            List.getElem?_append_right (Nat.le_refl _), List.getElem?_append_left] at here
          · exact once (List.mem_of_getElem? (by simpa using here))
          · simp only [List.length_cons] at short ⊢
            omega
      rw [List.cons_append, splitAfter, absent, ih later]
      rfl

/-! ## Reading goes on -/

namespace Document

/-- What has been read when a text has been read to its end. -/
def read (document : Document) (text : List Char) : Option Document :=
  (tokens? text).bind fun tokens => tokens.foldlM step? document

theorem read_nil (document : Document) : document.read [] = some document := by
  rw [read, tokens?]
  rfl

/-- The first token is taken, and then the rest is read. -/
theorem read_cons (document : Document) (c : Char) (text : List Char) :
    document.read (c :: text) = (token? c text).bind fun (token, rest) =>
      (document.step? token).bind (·.read rest) := by
  rw [read, tokens?]
  split
  · next none => rw [none]; rfl
  · next token rest found =>
    rw [found, Option.bind_some]
    cases more : tokens? rest with
    | none => cases document.step? token <;> simp [read, more]
    | some tokens => cases document.step? token <;> simp [read, more]

theorem read_of_token? {document next : Document} {c : Char} {text rest : List Char} {token : Token}
    (found : token? c text = some (token, rest)) (step : document.step? token = some next) :
    document.read (c :: text) = next.read rest := by
  rw [read_cons, found, Option.bind_some]
  dsimp only
  rw [step, Option.bind_some]

theorem addText_nil (document : Document) : document.addText [] = document := by
  obtain ⟨stack, root⟩ := document
  cases stack with
  | nil => rfl
  | cons frame outer => simp [addText]

theorem addText_append (document : Document) (front back : List Char) :
    document.addText (front ++ back) = (document.addText front).addText back := by
  obtain ⟨stack, root⟩ := document
  cases stack with
  | nil => rfl
  | cons frame outer => simp [addText, List.append_assoc]

/-- Text may be taken piece by piece. -/
theorem step?_text_append {raw value more : List Char} (document : Document)
    (means : unescape? (raw ++ more) = (unescape? more).map (value ++ ·)) :
    document.step? (.text (raw ++ more)) = (document.addText value).step? (.text more) := by
  obtain ⟨stack, root⟩ := document
  cases stack with
  | nil => rfl
  | cons frame outer =>
      rw [step?, if_neg (by simp), means, Option.map_map]
      refine congrArg (Option.map · (unescape? more)) (funext fun text => ?_)
      exact addText_append ⟨frame :: outer, root⟩ value text

theorem step?_text_nil (document : Document) : document.step? (.text []) = some document := by
  rw [step?]
  split
  · rfl
  · exact congrArg some document.addText_nil

/-- Reading begins with the text up to the next bracket. -/
theorem read_run (document : Document) (text : List Char) :
    document.read text = (document.step? (.text (text.takeWhile (· != '<')))).bind
      (·.read (text.dropWhile (· != '<'))) := by
  cases text with
  | nil => rw [List.takeWhile_nil, step?_text_nil]; rfl
  | cons c text =>
      by_cases bracket : c = '<'
      · subst bracket
        rw [List.takeWhile_cons_of_neg (by simp), List.dropWhile_cons_of_neg (by simp),
          step?_text_nil]
        rfl
      · have other : (c != '<') = true := bne_iff_ne.2 bracket
        rw [read_cons, token?, beq_eq_false_iff_ne.2 bracket, if_neg Bool.false_ne_true,
          List.takeWhile_cons, List.dropWhile_cons, other]
        rfl

/-- Text without brackets is read, whatever follows. -/
theorem read_text {raw value : List Char} (document : Document) (plain : '<' ∉ raw)
    (means : ∀ more, unescape? (raw ++ more) = (unescape? more).map (value ++ ·))
    (rest : List Char) :
    document.read (raw ++ rest) = (document.addText value).read rest := by
  have others : ∀ c ∈ raw, (c != '<') = true := by
    intro c member
    rw [bne_iff_ne]
    rintro rfl
    exact plain member
  rw [read_run, List.takeWhile_append_of_pos others, List.dropWhile_append_of_pos others,
    step?_text_append document (means _), ← read_run]

/-! ## Asides and sections -/

theorem read_comment (document : Document) (comment : Comment) (rest : List Char) :
    document.read (comment.print ++ rest) = document.read rest := by
  have found := splitAfter_append ['-', '-'] '>' (by decide) comment rest
  have token : token? '<' ('!' :: '-' :: '-' :: (comment.text ++ ('-' :: '-' :: '>' :: rest))) =
      some (.aside, rest) := by
    change (splitAfter (['-', '-'] ++ ['>']) (comment.text ++ (['-', '-'] ++ ['>'] ++ rest))).map
      (fun parts => (Token.aside, parts.2)) = _
    rw [found]
    rfl
  rw [Comment.print, List.append_assoc, List.append_assoc]
  exact read_of_token? token rfl

theorem read_data (document : Document) (data : CharacterData) (rest : List Char) :
    document.read (data.print ++ rest) = (document.addText data.text).read rest := by
  have found := splitAfter_append [']', ']'] '>' (by decide) data rest
  have token : token? '<' ('!' :: ("[CDATA[".toList ++
      (data.text ++ (']' :: ']' :: '>' :: rest)))) = some (.data data.text, rest) := by
    change (splitAfter ([']', ']'] ++ ['>']) (data.text ++ ([']', ']'] ++ ['>'] ++ rest))).map
      (fun parts => (Token.data parts.1, parts.2)) = _
    rw [found]
    rfl
  rw [CharacterData.print, List.append_assoc, List.append_assoc, List.append_assoc]
  exact read_of_token? token rfl

theorem read_declaration (document : Document) (declaration : Declaration) (rest : List Char) :
    document.read (declaration.print ++ rest) = document.read rest := by
  have free : ¬ ['?', '>'] <:+: 'x' :: 'm' :: 'l' :: declaration.text := by
    simpa [List.infix_cons_iff] using declaration.free
  have found := splitAfter_append ['?'] '>' (by decide) ⟨_, free⟩ rest
  have token : token? '<' ('?' :: 'x' :: 'm' :: 'l' ::
      (declaration.text ++ ('?' :: '>' :: rest))) = some (.aside, rest) := by
    change (splitAfter (['?'] ++ ['>']) (('x' :: 'm' :: 'l' :: declaration.text) ++
      (['?'] ++ ['>'] ++ rest))).map (fun parts => (Token.aside, parts.2)) = _
    rw [found]
    rfl
  rw [Declaration.print, List.append_assoc, List.append_assoc]
  exact read_of_token? token rfl

theorem unescape?_blanks (blanks : Blanks) (more : List Char) :
    unescape? (blanks.text ++ more) = (unescape? more).map (blanks.text ++ ·) := by
  obtain ⟨text, blank⟩ := blanks
  induction text with
  | nil => exact Option.map_id'.symm
  | cons c text ih =>
      rw [List.forall_mem_cons] at blank
      have other : (c == '&') = false := by
        rw [beq_eq_false_iff_ne]
        rintro rfl
        cases blank.1
      have later := ih blank.2
      rw [unescape?] at later ⊢
      rw [List.cons_append, unescapeFrom, other, if_neg Bool.false_ne_true, later, Option.map_map]
      rfl

theorem read_aside (root : Option Element) (aside : Aside) (rest : List Char) :
    (Document.mk [] root).read (aside.print ++ rest) = (Document.mk [] root).read rest := by
  cases aside with
  | comment note => exact read_comment _ note rest
  | blanks gap =>
      have plain : '<' ∉ gap.text := fun member => by cases gap.blank '<' member
      exact read_text _ plain (unescape?_blanks gap) rest

theorem read_asides (root : Option Element) (asides : List Aside) (rest : List Char) :
    (Document.mk [] root).read (asides.flatMap Aside.print ++ rest) =
      (Document.mk [] root).read rest := by
  induction asides with
  | nil => rfl
  | cons aside asides ih => rw [List.flatMap_cons, List.append_assoc, read_aside, ih]

end Document

/-! ## Tags and elements -/

/-- What is known of an element when its first tag has been read. -/
def Tag.frame (tag : Tag) : Frame :=
  ⟨tag.name.print, tag.attributes.map Attribute.entry, [], []⟩

theorem tagToken?_tag (tag : Tag) (text : List Char) :
    tagToken? (tag.print ++ text) =
      (tagBody none (tag.print ++ text)).map fun (inside, rest) =>
        match Text.beforeEnd ['/'] inside with
        | some inside => (.empty inside, rest)
        | none => (.start inside, rest) := by
  have other {mark : Char} (improper : isNameChar mark = false) (rest : List Char) :
      tag.print ++ text ≠ mark :: rest := by
    rw [Tag.print, Name.print, List.cons_append, List.cons_append]
    exact fun eq =>
      ne_of_isNameChar (isNameChar_of_isAlpha tag.name.letter) improper (List.cons.inj eq).1
  unfold tagToken?
  split
  · next empty => cases (List.append_eq_nil_iff.1 empty).1
  · next marked => exact absurd marked (other rfl _)
  · next marked => exact absurd marked (other rfl _)
  · next marked => exact absurd marked (other rfl _)
  · rfl

theorem token?_opening (tag : Tag) (rest : List Char) :
    token? '<' (tag.print ++ '>' :: rest) = some (.start tag.print, rest) := by
  have body := tagToken?_tag tag ('>' :: rest)
  rw [(passes_tag tag).tagBody_close, Option.map_some] at body
  dsimp only at body
  rw [beforeEnd_print] at body
  exact body

theorem token?_closed (tag : Tag) (rest : List Char) :
    token? '<' (tag.print ++ '/' :: '>' :: rest) = some (.empty tag.print, rest) := by
  have slash : Passes ['/'] := passes_of_plain (List.forall_mem_singleton.2 (by decide))
  have close := ((passes_tag tag).append slash).tagBody_close rest
  rw [List.append_assoc, List.singleton_append] at close
  have body := tagToken?_tag tag ('/' :: '>' :: rest)
  rw [close, Option.map_some] at body
  dsimp only at body
  rw [Text.beforeEnd_eq_some.2 rfl] at body
  exact body

theorem token?_closing (tag : Tag) (gap : Blanks) (rest : List Char) :
    token? '<' ('/' :: (tag.name.print ++ (gap.text ++ '>' :: rest))) =
      some (.close tag.name.print, rest) := by
  have close := ((passes_name tag.name).append (passes_blanks gap)).tagBody_close rest
  have stays : tag.name.print.reverse.dropWhile isSeparator = tag.name.print.reverse := by
    cases reversed : tag.name.print.reverse with
    | nil => rfl
    | cons c others =>
        have proper : isNameChar c = true :=
          Name.isNameChar_of_mem (List.mem_reverse.1 (reversed ▸ List.mem_cons_self))
        exact List.dropWhile_cons_of_neg (by simp [isSeparator_of_isNameChar proper])
  have name : Text.dropEndWhile isSeparator (tag.name.print ++ gap.text) = tag.name.print := by
    rw [Text.dropEndWhile, List.reverse_append, List.dropWhile_append_of_pos fun c member =>
      gap.blank c (List.mem_reverse.1 member), stays, List.reverse_reverse]
  change (tagBody none (tag.name.print ++ (gap.text ++ '>' :: rest))).map _ = _
  rw [← List.append_assoc, close, Option.map_some]
  dsimp only
  rw [name]
  rfl

namespace Document

theorem read_opening (document : Document) (tag : Tag) (rest : List Char) :
    document.read (tag.opening ++ rest) =
      ({ document with stack := tag.frame :: document.stack } : Document).read rest := by
  have step : document.step? (.start tag.print) =
      some { document with stack := tag.frame :: document.stack } := by
    rw [step?, frame?_print]
    rfl
  rw [Tag.opening, List.cons_append, List.append_assoc, List.singleton_append]
  exact read_of_token? (token?_opening tag rest) step

theorem read_closed (document : Document) (tag : Tag) (rest : List Char) :
    document.read (tag.closed ++ rest) = (document.attach (tag.element [] [])).read rest := by
  have step : document.step? (.empty tag.print) = some (document.attach (tag.element [] [])) := by
    rw [step?, frame?_print]
    rfl
  rw [Tag.closed, List.cons_append, List.append_assoc]
  exact read_of_token? (token?_closed tag rest) step

theorem read_closing (document : Document) (tag : Tag) (children : List Element)
    (text : List Char) (gap : Blanks) (rest : List Char) :
    ({ document with stack := { tag.frame with children := children.reverse, text := text } ::
          document.stack } : Document).read (tag.closing gap ++ rest) =
      (document.attach (tag.element children text)).read rest := by
  have step : ({ document with
        stack := { tag.frame with children := children.reverse, text := text } ::
          document.stack } : Document).step? (.close tag.name.print) =
      some (document.attach (tag.element children text)) := by
    simp [step?, Tag.frame, Frame.close, Tag.element]
  rw [Tag.closing, List.append_assoc, List.append_assoc, List.append_assoc]
  exact read_of_token? (token?_closing tag gap rest) step

/-- A document with content. -/
def take (document : Document) : Content → Document
  | .nil => document
  | .letters text rest => (document.addText (meant text)).take rest
  | .data part rest => (document.addText part.text).take rest
  | .comment _ rest => document.take rest
  | .empty tag rest => (document.attach (tag.element [] [])).take rest
  | .element tag inside _ rest =>
    (document.attach (tag.element inside.children inside.text)).take rest

/-- An open element gets the children and the text of its content. -/
theorem take_frame (frame : Frame) (outer : List Frame) (root : Option Element)
    (content : Content) :
    (Document.mk (frame :: outer) root).take content =
      ⟨{ frame with
          children := content.children.reverse ++ frame.children
          text := frame.text ++ content.text } :: outer, root⟩ := by
  induction content generalizing frame with
  | nil => simp [take, Content.children, Content.text]
  | letters text rest ih | data part rest ih =>
      simp [take, addText, ih, Content.children, Content.text]
  | comment note rest ih => exact ih frame
  | empty tag rest ih | element tag inside gap rest _ ih =>
      simp [take, attach, ih, Content.children, Content.text]

/-- Whatever stands in an element is read as it was meant. -/
theorem read_content (document : Document) (content : Content) (rest : List Char) :
    document.read (content.print ++ rest) = (document.take content).read rest := by
  induction content generalizing document rest with
  | nil => rfl
  | letters text others ih =>
      have plain : '<' ∉ spelled text := not_mem_spelled (by simp) rfl (by decide) (by decide) text
      rw [Content.print, List.append_assoc,
        read_text document plain (unescape?_spelled text (by simp)), ih]
      rfl
  | data part others ih =>
      rw [Content.print, List.append_assoc, read_data, ih]
      rfl
  | comment note others ih =>
      rw [Content.print, List.append_assoc, read_comment, ih]
      rfl
  | empty tag others ih =>
      rw [Content.print, List.append_assoc, read_closed, ih]
      rfl
  | element tag inside gap others insideIh ih =>
      rw [Content.print, List.append_assoc, List.append_assoc, List.append_assoc, read_opening,
        insideIh, take_frame]
      simp only [Tag.frame, List.append_nil, List.nil_append]
      exact (read_closing document tag inside.children inside.text gap _).trans (ih _ rest)

end Document

theorem Root.take_content (root : Root) :
    (Document.mk [] none).take root.content = ⟨[], some root.meaning⟩ := by
  cases root <;> rfl

/-- However a payload is written, the element that is read is the one that was meant. -/
theorem parse_print (payload : Payload) : parse payload.print = .ok payload.root.meaning := by
  have read : (Document.mk [] none).read payload.print = some ⟨[], some payload.root.meaning⟩ := by
    have declared (rest : List Char) : (Document.mk [] none).read
        (payload.declaration.toList.flatMap Declaration.print ++ rest) =
          (Document.mk [] none).read rest := by
      cases payload.declaration with
      | none => rfl
      | some declaration =>
          rw [Option.toList_some, List.flatMap_singleton]
          exact Document.read_declaration _ declaration rest
    have ends := Document.read_asides (some payload.root.meaning) payload.after []
    rw [List.append_nil] at ends
    rw [Payload.print, declared, Document.read_asides, Document.read_content, Root.take_content,
      ends, Document.read_nil]
  rw [Document.read] at read
  rw [parse, read]

end Markup
end DebugBridge
