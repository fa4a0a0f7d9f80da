import DebugBridge.Proofs.Data.Forest
import DebugBridge.Protocol.Response

/-!
# The properties in an answer

An answer shows properties as elements in elements.  They are read as a forest of the same shape, in
which each property has the name and the value that its element tells; elements of other names, and
what is in them, are left out.  Reading fails if some element of the forest has base-64 text that
cannot be decoded, wherever it stands, and for no other reason.
-/

namespace DebugBridge

/-! ## Forests of elements -/

namespace Element

/-- The elements in an element that describe properties. -/
def properties (element : Element) : List Element := element.childrenNamed "property"

/-- Whether the text of an element is said to be base-64, and is not. -/
def Undecodable (element : Element) : Prop :=
  ∃ encoding, element.attr? "encoding" = some encoding ∧
    Text.equalIgnoringCase encoding "base64" = true ∧
    ∃ fault, Text.Base64.decode
      (Text.utf8 (element.text.toList.filter fun c => !Text.isBlank c)) = .error fault

/-- What holds of a forest of elements if it holds of the children of its first one, and of the
others. -/
@[elab_as_elim]
theorem forest_induction {motive : List Element → Prop} (nil : motive [])
    (cons : ∀ name attributes children text rest, motive children → motive rest →
      motive (⟨name, attributes, children, text⟩ :: rest)) : ∀ elements, motive elements
  | [] => nil
  | ⟨name, attributes, children, text⟩ :: rest =>
      cons name attributes children text rest (forest_induction nil cons children)
        (forest_induction nil cons rest)

end Element

/-! ## Decoding -/

theorem decodeText_of_plain {text encoding : String}
    (plain : Text.equalIgnoringCase encoding "base64" = false) : decodeText text encoding = .ok text := by
  rw [decodeText, if_neg (Bool.eq_false_iff.1 plain)]

theorem decodeText_error_iff {text encoding : String} {error : ProtocolError} :
    decodeText text encoding = .error error ↔
      Text.equalIgnoringCase encoding "base64" = true ∧ ∃ fault,
        Text.Base64.decode (Text.utf8 (text.toList.filter fun c => !Text.isBlank c)) = .error fault ∧
          error = .invalidData (.encoding fault) := by
  cases kind : Text.equalIgnoringCase encoding "base64" with
  | false => simp [decodeText_of_plain kind]
  | true =>
      rw [decodeText, if_pos kind]
      dsimp only
      cases Text.Base64.decode (Text.utf8 (text.toList.filter fun c => !Text.isBlank c)) with
      | ok bytes => simp
      | error fault => simp [eq_comm]

namespace Property

/-- A property tells what its element does: the full name is the attribute for it or else the name;
there is no value exactly if there are neither text nor encoding, and otherwise it is the decoded
text. -/
structure Mirrors (element : Element) (property : Property) : Prop where
  /-- The name. -/
  name : property.name = element.attr "name"
  /-- The full name. -/
  fullName : property.fullName = (element.attr? "fullname").getD property.name
  /-- When there is no value. -/
  valueless : property.value = none ↔ element.text = "" ∧ element.attr? "encoding" = none
  /-- The value. -/
  decoded (text : String) (value : property.value = some text) :
    decodeText element.text ((element.attr? "encoding").getD "none") = .ok text

variable {element : Element} {elements : List Element} {error : ProtocolError}

theorem Mirrors.decodable {property : Property} (mirrors : property.Mirrors element) :
    ¬ element.Undecodable := by
  rintro ⟨encoding, told, kind, fault, fails⟩
  cases value : property.value with
  | none =>
      have untold := (mirrors.valueless.1 value).2
      rw [told] at untold
      cases untold
  | some text =>
      have decoded := mirrors.decoded text value
      rw [told, Option.getD_some, decodeText_error_iff.2 ⟨kind, fault, fails, rfl⟩] at decoded
      cases decoded

theorem valueOf_cases (element : Element) :
    (element.text = "" ∧ element.attr? "encoding" = none) ∧ valueOf element = .ok none ∨
      ¬ (element.text = "" ∧ element.attr? "encoding" = none) ∧ valueOf element =
        (decodeText element.text ((element.attr? "encoding").getD "none")).map some := by
  rw [valueOf]
  split
  · next nothing => exact .inl ⟨by simpa [String.isEmpty_iff] using nothing, rfl⟩
  · next something => exact .inr ⟨by simpa [String.isEmpty_iff] using something, rfl⟩

/-- A property with the value that is read from an element mirrors it. -/
theorem mirrors_assemble {value : Option String} (children : List Property)
    (read : valueOf element = .ok value) : (assemble element children value).Mirrors element := by
  rcases valueOf_cases element with ⟨nothing, same⟩ | ⟨something, same⟩ <;> rw [same] at read
  · cases read
    exact ⟨rfl, rfl, iff_of_true rfl nothing, nofun⟩
  · cases decoded : decodeText element.text ((element.attr? "encoding").getD "none") with
    | error fault =>
        rw [decoded] at read
        cases read
    | ok text =>
        rw [decoded] at read
        cases read
        refine ⟨rfl, rfl, iff_of_false nofun something, fun _ value => ?_⟩
        cases value
        exact decoded

theorem undecodable_of_valueOf (fails : valueOf element = .error error) :
    element.Undecodable ∧ ∃ fault, error = .invalidData (.encoding fault) := by
  rcases valueOf_cases element with ⟨-, same⟩ | ⟨-, same⟩ <;> rw [same] at fails
  · cases fails
  · cases told : element.attr? "encoding" with
    | none =>
        rw [told, Option.getD_none, decodeText_of_plain (by decide)] at fails
        cases fails
    | some encoding =>
        rw [told, Option.getD_some] at fails
        cases read : decodeText element.text encoding with
        | ok text =>
            rw [read] at fails
            cases fails
        | error other =>
            rw [read] at fails
            cases fails
            obtain ⟨kind, fault, fails, rfl⟩ := decodeText_error_iff.1 read
            exact ⟨⟨encoding, told, kind, fault, fails⟩, fault, rfl⟩

/-! ## Reading -/

/-- The properties mirror the elements that describe some among the given ones, at every address. -/
def Shows (elements : List Element) (found : List Property) : Prop :=
  Forest.Corresponds (fun element property => Mirrors element property) Element.properties children
    (elements.filter fun element => element.name == "property") found

/-- Some element among those that describe properties cannot be decoded, at whatever address. -/
def Spoiled (elements : List Element) : Prop :=
  ∃ address element, Forest.at? Element.properties
    (elements.filter fun element => element.name == "property") address = some element ∧
      element.Undecodable

/-- What comes of reading the properties among some elements. -/
inductive Reads (elements : List Element) : Except ProtocolError (List Property) → Prop
  /-- They are mirrored. -/
  | shown {found : List Property} (shown : Shows elements found) : Reads elements (.ok found)
  /-- One cannot be decoded. -/
  | spoiled {fault : Text.Base64.Fault} (spoiled : Spoiled elements) :
      Reads elements (.error (.invalidData (.encoding fault)))

/-- What is mirrored can be decoded. -/
theorem Shows.not_spoiled {found : List Property} (shown : Shows elements found) :
    ¬ Spoiled elements := by
  rintro ⟨address, element, there, undecodable⟩
  obtain ⟨property, -, mirrors⟩ := shown.exists_at? there
  exact mirrors.decodable undecodable

section Spoiled

variable {rest : List Element}

theorem filter_property (isProperty : element.name = "property") (rest : List Element) :
    ((element :: rest).filter fun element => element.name == "property") =
      element :: rest.filter fun element => element.name == "property" :=
  List.filter_cons_of_pos (by simp [isProperty])

theorem spoiled_root (isProperty : element.name = "property") (undecodable : element.Undecodable) :
    Spoiled (element :: rest) :=
  ⟨[0], element, by rw [filter_property isProperty, Forest.at?_root], undecodable⟩

theorem Spoiled.inside (isProperty : element.name = "property") (spoiled : Spoiled element.children) :
    Spoiled (element :: rest) := by
  obtain ⟨address, inner, there, undecodable⟩ := spoiled
  have place : address ≠ [] := Forest.ne_nil_of_at? (by rw [there]; rfl)
  refine ⟨0 :: address, inner, ?_, undecodable⟩
  rw [filter_property isProperty, Forest.at?_below _ _ place]
  exact there

theorem Spoiled.later (isProperty : element.name = "property") (spoiled : Spoiled rest) :
    Spoiled (element :: rest) := by
  obtain ⟨address, inner, there, undecodable⟩ := spoiled
  refine ⟨Forest.advance address, inner, ?_, undecodable⟩
  rw [filter_property isProperty, Forest.at?_advance]
  exact there

end Spoiled

theorem ofElements_property (isProperty : element.name = "property") (rest : List Element) :
    ofElements (element :: rest) =
      match ofElements element.children, valueOf element, ofElements rest with
      | .error error, _, _ => .error error
      | .ok _, .error error, _ => .error error
      | .ok _, .ok _, .error error => .error error
      | .ok children, .ok value, .ok later => .ok (assemble element children value :: later) := by
  obtain ⟨name, attributes, inner, text⟩ := element
  rw [ofElements, if_pos (by simpa using isProperty), ofElement]
  change Except.bind (Except.bind (ofElements inner) fun children =>
    Except.bind (valueOf ⟨name, attributes, inner, text⟩) _) _ = _
  cases ofElements inner <;> cases valueOf ⟨name, attributes, inner, text⟩ <;>
    cases ofElements rest <;> rfl

/-- Reading the properties among some elements mirrors them, or fails because of one of them. -/
theorem reads_ofElements (elements : List Element) : Reads elements (ofElements elements) := by
  induction elements using Element.forest_induction with
  | nil =>
      rw [ofElements]
      exact .shown Forest.corresponds_nil
  | cons name attributes inner text rest inside later =>
      generalize same : (⟨name, attributes, inner, text⟩ : Element) = element
      obtain rfl : element.children = inner := same ▸ rfl
      by_cases isProperty : element.name = "property"
      · rw [ofElements_property isProperty]
        generalize ofElements element.children = insideResult at inside ⊢
        generalize ofElements rest = laterResult at later ⊢
        cases inside with
        | spoiled spoiled => exact .spoiled (spoiled.inside isProperty)
        | shown insideShown =>
            cases read : valueOf element with
            | error error =>
                obtain ⟨undecodable, fault, rfl⟩ := undecodable_of_valueOf read
                exact .spoiled (spoiled_root isProperty undecodable)
            | ok value =>
                cases later with
                | spoiled spoiled => exact .spoiled (spoiled.later isProperty)
                | shown laterShown =>
                    refine .shown ?_
                    rw [Shows, filter_property isProperty]
                    exact .cons (mirrors_assemble _ read) insideShown laterShown
      · have dropped : ((element :: rest).filter fun element => element.name == "property") =
              rest.filter fun element => element.name == "property" :=
          List.filter_cons_of_neg (by simp [isProperty])
        rw [ofElements, if_neg (by simpa using isProperty)]
        generalize ofElements rest = laterResult at later ⊢
        cases later with
        | spoiled spoiled =>
            refine .spoiled ?_
            rwa [Spoiled, dropped]
        | shown shown =>
            refine .shown ?_
            rwa [Shows, dropped]

end Property

/-- The properties that an answer shows mirror its elements.  Reading them fails if and only if some
element that is reached from the root through elements of properties alone has base-64 text that cannot
be decoded, and it fails with that fault; otherwise there is a property for each element that is
reached so, at the same address, and it tells what its element does. -/
theorem Response.properties_mirror (response : Response) :
    ((∃ fault, response.properties = .error (.invalidData (.encoding fault))) ↔
        ∃ address element, Forest.at? Element.properties response.element.properties address =
          some element ∧ element.Undecodable) ∧
      (∀ error, response.properties = .error error →
        ∃ fault, error = .invalidData (.encoding fault)) ∧
      ∀ found, response.properties = .ok found →
        Forest.Corresponds (fun element property => Property.Mirrors element property)
          Element.properties Property.children response.element.properties found := by
  have reads : Property.Reads response.element.children response.properties :=
    Property.reads_ofElements response.element.children
  generalize response.properties = result at reads ⊢
  cases reads with
  | shown shown =>
      refine ⟨⟨nofun, ?_⟩, nofun, ?_⟩
      · exact fun spoiled => absurd spoiled shown.not_spoiled
      · rintro _ ⟨⟩
        exact shown
  | spoiled spoiled =>
      refine ⟨iff_of_true ⟨_, rfl⟩ spoiled, ?_, nofun⟩
      rintro _ ⟨⟩
      exact ⟨_, rfl⟩

end DebugBridge
