import DebugBridge.Proofs.Protocol.Property
import DebugBridge.Proofs.Text.Canonical
import DebugBridge.Proofs.Text.Lenient
import DebugBridge.Protocol.Packet

/-!
# Text in base-64 survives the wire

Output and values come as base-64 text, in which blanks do not count.  Whatever text was encoded is
what is read; and reading fails for such text as no bytes are encoded as, for no other.  Bytes that
are no text are replaced.
-/

namespace DebugBridge

/-- A text with blanks put in anywhere. -/
inductive Spread : List Char → List Char → Prop
  /-- Nothing is left. -/
  | nil : Spread [] []
  /-- A blank is put in. -/
  | blank {plain text : List Char} {c : Char} (blank : Text.isBlank c = true)
      (next : Spread plain text) : Spread plain (c :: text)
  /-- A character of the text. -/
  | char {plain text : List Char} (c : Char) (next : Spread plain text) :
      Spread (c :: plain) (c :: text)

/-- Without blanks it is the text as it was. -/
theorem Spread.filter_eq {plain text : List Char} (spread : Spread plain text)
    (visible : ∀ c ∈ plain, Text.isBlank c = false) :
    (text.filter fun c => !Text.isBlank c) = plain := by
  induction spread with
  | nil => rfl
  | blank blank _ ih =>
      rw [List.filter_cons_of_neg (by rw [blank]; decide)]
      exact ih visible
  | char c _ ih =>
      obtain ⟨first, rest⟩ := List.forall_mem_cons.1 visible
      rw [List.filter_cons_of_pos (by rw [first]; rfl), ih rest]

/-- No character of base-64 text is blank. -/
theorem isBlank_of_mem_encode {bytes : List UInt8} {c : Char}
    (member : c ∈ Text.Base64.encode bytes) : Text.isBlank c = false := by
  have symbols : ∀ value < 64, Text.isBlank (Text.Base64.symbol value) = false := by decide
  rcases Text.Base64.mem_encode member with rfl | ⟨value, small, rfl⟩
  · decide
  · exact symbols value small

theorem equalIgnoringCase_of_lowered {text name : String}
    (lowered : Text.lowered text = Text.lowered name) :
    Text.equalIgnoringCase text name = true := by
  rw [Text.lowered, Text.lowered, String.ofList_inj] at lowered
  rw [Text.equalIgnoringCase, Text.sameIgnoringCase, lowered, beq_self_eq_true]

/-- Text said to be base-64 is read exactly if it is so but for blanks. -/
theorem decodeText_eq_ok_iff {text encoding content : String}
    (base64 : Text.equalIgnoringCase encoding "base64" = true) :
    decodeText text encoding = .ok content ↔
      ∃ bytes, (text.toList.filter fun c => !Text.isBlank c) = Text.Base64.encode bytes ∧
        content = Text.textOf bytes := by
  rw [decodeText, if_pos base64]
  dsimp only
  cases decoded : Text.Base64.decode
      (Text.utf8 (text.toList.filter fun c => !Text.isBlank c)) with
  | error fault =>
      constructor
      · intro same
        cases same
      · rintro ⟨bytes, plain, -⟩
        rw [plain, Text.Base64.decode_encode] at decoded
        cases decoded
  | ok bytes =>
      have plain := Text.Base64.decode_utf8_iff.1 decoded
      constructor
      · intro same
        cases same
        exact ⟨bytes, plain, rfl⟩
      · rintro ⟨other, told, rfl⟩
        rw [told, Text.Base64.decode_encode] at decoded
        cases decoded
        rfl

/-- Elements that carry a text are read as carrying it. -/
structure Carries (text encoding content : String) : Prop where
  /-- The text is decoded. -/
  decoded : decodeText text encoding = .ok content
  /-- Output. -/
  output {element : Element} {name : String} {kind : StreamKind} (stream : element.name = "stream")
    (here : element.text = text) (told : element.attr? "encoding" = some encoding)
    (type : element.attr? "type" = some name) (known : StreamKind.parse name = .ok kind) :
    Packet.ofElement element = .ok (.stream { kind, encoding, data := content })
  /-- The value of a property, whose children may still be at fault. -/
  value {element : Element} (here : element.text = text)
    (told : element.attr? "encoding" = some encoding) :
    (Property.ofElement element).map Property.value =
      (Property.ofElements element.children).map fun _ => some content

/-- Decoded text is what elements with it carry. -/
theorem carries_of_decodeText {text encoding content : String}
    (decoded : decodeText text encoding = .ok content) : Carries text encoding content where
  decoded := decoded
  output {element name kind} stream here told type known := by
    subst here
    rw [Packet.ofElement, stream]
    simp only
    rw [StreamPacket.ofElement, type]
    simp only
    rw [known, told, Option.getD_some, decoded]
    rfl
  value {element} here told := by
    subst here
    obtain ⟨name, attributes, children, text⟩ := element
    have value : Property.valueOf ⟨name, attributes, children, text⟩ = .ok (some content) := by
      rcases Property.valueOf_cases ⟨name, attributes, children, text⟩ with
        ⟨⟨-, untold⟩, -⟩ | ⟨-, same⟩
      · rw [told] at untold
        cases untold
      · rw [same, told, Option.getD_some, decoded]
        rfl
    rw [Property.ofElement]
    cases Property.ofElements children with
    | error error => rfl
    | ok found =>
        simp only [value, bind, Except.bind]
        rfl

/-- Whatever the letters of the encoding's name, text that was encoded is carried, with blanks put
in anywhere.  Decoding fails for such text as is not, without its blanks, what some bytes are
encoded as; for all other it gives the bytes as text, broken parts being replaced. -/
theorem decodeText_base64 {encoding : String} (base64 : Text.lowered encoding = "base64") :
    (∀ content text : String, Spread (Text.Base64.encode (Text.bytesOf content)) text.toList →
      Carries text encoding content) ∧
    ∀ text : String,
      ((∃ fault, decodeText text encoding = .error (.invalidData (.encoding fault))) ↔
        ∀ bytes, (text.toList.filter fun c => !Text.isBlank c) ≠ Text.Base64.encode bytes) ∧
      ∀ bytes, (text.toList.filter fun c => !Text.isBlank c) = Text.Base64.encode bytes →
        ∃ content, decodeText text encoding = .ok content ∧
          Text.Mended bytes content.toList := by
  have kind : Text.equalIgnoringCase encoding "base64" = true :=
    equalIgnoringCase_of_lowered (base64.trans (by decide))
  refine ⟨fun content text spread => ?_, fun text => ⟨⟨?_, fun other => ?_⟩, fun bytes plain => ?_⟩⟩
  · apply carries_of_decodeText
    refine (decodeText_eq_ok_iff kind).2
      ⟨_, spread.filter_eq fun c => isBlank_of_mem_encode, ?_⟩
    rw [Text.textOf, Text.bytesOf, Text.utf8Lossy_utf8, String.ofList_toList]
  · rintro ⟨fault, fails⟩ bytes plain
    rw [(decodeText_eq_ok_iff kind).2 ⟨bytes, plain, rfl⟩] at fails
    cases fails
  · cases read : decodeText text encoding with
    | ok content =>
        obtain ⟨bytes, plain, -⟩ := (decodeText_eq_ok_iff kind).1 read
        exact absurd plain (other bytes)
    | error error =>
        obtain ⟨-, fault, -, rfl⟩ := decodeText_error_iff.1 read
        exact ⟨fault, rfl⟩
  · refine ⟨Text.textOf bytes, (decodeText_eq_ok_iff kind).2 ⟨bytes, plain, rfl⟩, ?_⟩
    rw [Text.mended_iff, Text.textOf, String.toList_ofList]

/-- Text with blanks in it, text whose last symbol has unused bits set, and a byte that begins no
character. -/
theorem decodeText_base64_blanks :
    Text.lowered "BASE64" = "base64" ∧ Carries "aMO\tpC\u00A0g=\n=" "BASE64" "hé\n" ∧
      (∀ bytes, ("aMOpCh==".toList.filter fun c => !Text.isBlank c) ≠
        Text.Base64.encode bytes) ∧
      ∃ content, decodeText "/w ==" "BASE64" = .ok content ∧ Text.Mended [0xFF] content.toList := by
  have base64 : Text.lowered "BASE64" = "base64" := by decide
  have spread : Spread (Text.Base64.encode (Text.bytesOf "hé\n"))
      "aMO\tpC\u00A0g=\n=".toList :=
    .char _ <| .char _ <| .char _ <| .blank rfl <| .char _ <| .char _ <| .blank rfl <| .char _ <|
      .char _ <| .blank rfl <| .char _ .nil
  obtain ⟨carried, others⟩ := decodeText_base64 base64
  exact ⟨base64, carried "hé\n" _ spread, (others "aMOpCh==").1.1 ⟨.lastSymbol 104 5, by decide⟩,
    (others "/w ==").2 [0xFF] (by decide)⟩

end DebugBridge
