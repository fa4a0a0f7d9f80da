import DebugBridge.Debugger.Inspection
import DebugBridge.Proofs.Debugger.Exchange
import DebugBridge.Proofs.Debugger.Seeding

/-!
# Children that come in pages

An engine gives the children of a property a page at a time.  How many children there are, and which
page it has given, is what the engine says.  An engine that tells the truth is asked until it has
given all of them; no engine is asked more often than the number of children that it claimed at
first, whatever it answers, for each further page has to bring a child that was missing.
-/

namespace DebugBridge

variable {σ : Type} {rule : AnswerRule σ}

/-- Surroundings in which a list of children is given in pages of some size: each page that the list
reaches, and page 0 always, comes with the number of all children, its own number and its part of
the list. -/
def AnswerRule.Pages (rule : AnswerRule σ) (command : Nat → Command) (size : Nat)
    (children : List Property) : Prop :=
  ∀ page, page = 0 ∨ page * size < children.length → ∀ world, ∃ response property others,
    (rule (.submit (command page) none) world).1 = .ok response ∧
      response.properties = .ok (property :: others) ∧
      property.childCount = children.length ∧ property.page = page ∧
      property.children = (children.drop (page * size)).take size

namespace Link

open Operation

variable {link : Link} {world : σ} {exchanges : List Exchange}

/-! ## What an answer tells -/

/-- The properties that an answer tells of; an error of the engine and an answer that cannot be
read are passed on. -/
def foundIn : Except SessionError Response → Except DebugError (List Property)
  | .error error => .error (.ofSession error)
  | .ok response => response.properties.mapError fun fault => .session (.protocol fault)

/-- The property that an answer is about: the first one. -/
def propertyIn? (answer : Except SessionError Response) : Option Property :=
  (foundIn answer).toOption.bind List.head?

/-- The children that an answer gives. -/
def childrenIn (answer : Except SessionError Response) : Except DebugError (List Property) :=
  (foundIn answer).map fun found => (found.head?.map Property.children).getD []

/-- The number of children that an answer claims. -/
def countIn (answer : Except SessionError Response) : Nat :=
  ((propertyIn? answer).map Property.childCount).getD 0

/-- The number of the page that an answer claims to give. -/
def pageIn (answer : Except SessionError Response) : Nat :=
  ((propertyIn? answer).map Property.page).getD 0

/-- Asking for properties is one command, and its result is what the answer tells. -/
theorem properties_ensures (command : Command) :
    (properties command).Ensures rule link world fun result after last =>
      after = link ∧ last = (rule (.submit command none) world).2 ∧
        result = foundIn (rule (.submit command none) world).1 := by
  refine (ensures_bind _ _).2 ((ensures_bind _ _).2 ((ensures_attempt _).2 ?_))
  rcases rule (.submit command none) world with ⟨error | response, next⟩
  · cases error with
    | engine error => exact (ensures_throw _).2 ⟨rfl, rfl, rfl⟩
    | _ => exact ⟨rfl, rfl, rfl⟩
  · refine (ensures_pure _).2 ?_
    dsimp only [foundIn]
    cases response.properties with
    | error fault => exact (ensures_throw _).2 ⟨rfl, rfl, rfl⟩
    | ok found => exact (ensures_pure _).2 ⟨rfl, rfl, rfl⟩

/-! ## Any engine -/

/-- The exchanges that ask for the pages after one, with the answers in order. -/
def furtherExchanges (command : Nat → Command) (page : Nat)
    (answers : List (Except SessionError Response)) : List Exchange :=
  answers.mapIdx fun i answer =>
    ⟨.submit (command ((page + i + 1) % (Text.maxWord + 1))) none, answer⟩

theorem furtherExchanges_cons (command : Nat → Command) (page : Nat)
    (answer : Except SessionError Response) (answers : List (Except SessionError Response)) :
    furtherExchanges command page (answer :: answers) =
      ⟨.submit (command (pageAfter page)) none, answer⟩ ::
        furtherExchanges command (pageAfter page) answers := by
  have next (i : Nat) : (page + (i + 1) + 1) % (Text.maxWord + 1) =
      (pageAfter page + i + 1) % (Text.maxWord + 1) := by
    rw [pageAfter, Nat.add_assoc _ i, Nat.mod_add_mod, Nat.add_right_comm, Nat.add_assoc]
  rw [furtherExchanges, List.mapIdx_cons]
  refine congrArg _ (congrArg (List.mapIdx · answers) (funext₂ fun i answer => ?_))
  exact congrArg (fun number => (⟨.submit (command number) none, answer⟩ : Exchange)) (next i)

/-- What comes of asking for further pages, `total` being the number of children that was claimed
and `children` those that are at hand: one page is asked for after the other, until there are as
many children, or a page brings none, or an answer fails. -/
inductive Continues (total : Nat) :
    (children : List Property) → (answers : List (Except SessionError Response)) →
      (result : Except DebugError (List Property)) → Prop
  /-- There are as many children as were claimed. -/
  | enough {children} (all : total ≤ children.length) : Continues total children [] (.ok children)
  /-- The answer fails. -/
  | failed {children answer error} (missing : children.length < total)
      (fails : childrenIn answer = .error error) :
      Continues total children [answer] (.error error)
  /-- The page brings none. -/
  | nothing {children answer} (missing : children.length < total)
      (empty : childrenIn answer = .ok []) : Continues total children [answer] (.ok children)
  /-- The page brings some, and the next one is asked for. -/
  | more {children found answer answers result} (missing : children.length < total)
      (gives : childrenIn answer = .ok found) (some : found ≠ [])
      (rest : Continues total (children ++ found) answers result) :
      Continues total children (answer :: answers) result

namespace Continues

variable {total : Nat} {children : List Property} {answers : List (Except SessionError Response)}
  {result : Except DebugError (List Property)}

/-- Each page that is asked for fills a place that was empty. -/
theorem length_le (continues : Continues total children answers result) :
    answers.length ≤ total - children.length := by
  induction continues with
  | enough => exact Nat.zero_le _
  | failed missing | nothing missing => exact Nat.sub_pos_of_lt missing
  | more missing _ some _ ih =>
      have := List.length_pos_iff.2 some
      rw [List.length_append] at ih
      rw [List.length_cons]
      omega

/-- The result is what all answers give, in order, after what was at hand. -/
theorem result_eq (continues : Continues total children answers result) :
    result = (answers.mapM childrenIn).map fun found => children ++ found.flatten := by
  induction continues with
  | enough => simp [Except.map, pure, Except.pure]
  | failed _ fails => simp [fails, Except.map, bind, Except.bind]
  | nothing _ empty => simp [empty, Except.map, bind, Except.bind, pure, Except.pure]
  | @more children found answer answers result _ gives _ _ ih =>
      rw [ih, List.mapM_cons, gives]
      cases answers.mapM childrenIn <;> simp [Except.map, bind, Except.bind, pure, Except.pure]

/-- It is not for want of requests that children are missing in the end. -/
theorem complete {found : List Property}
    (continues : Continues total children answers (.ok found)) :
    total ≤ found.length ∨ answers.getLast?.map childrenIn = some (.ok []) := by
  generalize ended : Except.ok found = result at continues
  induction continues with
  | enough all =>
      cases ended
      exact .inl all
  | failed => cases ended
  | nothing _ empty => exact .inr (by simp [empty])
  | @more _ _ answer answers _ _ _ _ _ ih =>
      refine (ih ended).imp_right fun last => ?_
      cases answers with
      | nil => cases last
      | cons next answers => rwa [List.getLast?_cons_cons]

end Continues

/-- As many requests are allowed as children are missing, so that they never run out. -/
theorem addPages_continues (command : Nat → Command) (total : Nat) {pages page : Nat}
    {children : List Property} (allowed : total - children.length ≤ pages) :
    (addPages command total pages page children).Ensures rule.recorded link (world, exchanges)
      fun result after last => after = link ∧ ∃ answers,
        last.2 = exchanges ++ furtherExchanges command page answers ∧
          Continues total children answers result := by
  induction pages generalizing page children world exchanges with
  | zero =>
      refine (ensures_pure _).2 ⟨rfl, [], (List.append_nil _).symm, .enough ?_⟩
      exact Nat.le_of_sub_eq_zero (Nat.le_zero.1 allowed)
  | succ pages ih =>
      unfold addPages
      split
      · next all => exact (ensures_pure _).2 ⟨rfl, [], (List.append_nil _).symm, .enough all⟩
      next missing =>
      rw [Nat.not_le] at missing
      refine (ensures_bind _ _).2 ((properties_ensures _).mono ?_)
      rintro _ _ _ ⟨rfl, rfl, rfl⟩
      dsimp only [AnswerRule.recorded]
      generalize (rule (.submit (command (pageAfter page)) none) world).1 = answer
      have asked : furtherExchanges command page [answer] =
          [⟨.submit (command (pageAfter page)) none, answer⟩] := furtherExchanges_cons ..
      cases told : foundIn answer with
      | error error =>
          exact ⟨rfl, [answer], by rw [asked], .failed missing (by rw [childrenIn, told]; rfl)⟩
      | ok found =>
      have gives : childrenIn answer = .ok ((found.head?.map Property.children).getD []) := by
        rw [childrenIn, told]
        rfl
      cases found with
      | nil => exact (ensures_pure _).2 ⟨rfl, [answer], by rw [asked], .nothing missing gives⟩
      | cons property others =>
      change childrenIn answer = .ok property.children at gives
      by_cases empty : property.children = []
      · rw [empty] at gives
        simp only [List.head?, empty, List.isEmpty_nil, if_true]
        exact (ensures_pure _).2 ⟨rfl, [answer], by rw [asked], .nothing missing gives⟩
      simp only [List.head?, List.isEmpty_eq_false_iff.2 empty, Bool.false_eq_true, if_false]
      refine (ih ?_).mono ?_
      · -- The page brings a child, so that one request less suffices for those still missing.
        have := List.length_pos_iff.2 empty
        rw [List.length_append]
        omega
      · rintro result after last ⟨rfl, answers, exchanged, continues⟩
        refine ⟨rfl, answer :: answers, ?_, .more missing gives empty continues⟩
        rw [exchanged, furtherExchanges_cons]
        exact List.append_assoc ..

/-! ## An engine that tells the truth -/

section Pages

variable {command : Nat → Command} {size : Nat} {all : List Property}
  (pages : rule.Pages command size all)
include pages

theorem properties_pages {page : Nat} (reached : page = 0 ∨ page * size < all.length) :
    (properties (command page)).Ensures rule link world fun result after _ =>
      after = link ∧ ∃ property others, result = .ok (property :: others) ∧
        property.childCount = all.length ∧ property.page = page ∧
        property.children = (all.drop (page * size)).take size := by
  refine (properties_ensures _).mono ?_
  rintro _ _ _ ⟨rfl, -, rfl⟩
  obtain ⟨response, property, others, answered, read, given⟩ := pages page reached world
  rw [answered, foundIn, read]
  exact ⟨rfl, property, others, rfl, given⟩

/-- When the pages up to one have been fetched, the children at hand are the first ones of the list,
and the pages after it bring the others. -/
theorem addPages_pages (size_pos : 1 ≤ size) (few : all.length ≤ Text.maxWord) {allowed : Nat}
    (page : Nat) (enough : all.length - (all.take ((page + 1) * size)).length ≤ allowed) :
    (addPages command all.length allowed page (all.take ((page + 1) * size))).Ensures rule link
      world fun result after _ => after = link ∧ result = .ok all := by
  induction allowed generalizing page world with
  | zero =>
      refine (ensures_pure _).2 ⟨rfl, congrArg Except.ok (List.take_of_length_le ?_)⟩
      rw [List.length_take] at enough
      omega
  | succ allowed ih =>
      unfold addPages
      split
      · next done =>
          rw [List.length_take] at done
          exact (ensures_pure _).2 ⟨rfl, congrArg Except.ok (List.take_of_length_le (by omega))⟩
      next missing =>
      rw [List.length_take] at missing
      have reached : (page + 1) * size < all.length := by omega
      -- Page numbers do not wrap around before the list ends.
      have page_le : page + 1 ≤ (page + 1) * size := Nat.le_mul_of_pos_right _ size_pos
      have counted : pageAfter page = page + 1 := Nat.mod_eq_of_lt (by omega)
      rw [counted]
      refine (ensures_bind _ _).2 ((properties_pages pages (.inr reached)).mono ?_)
      rintro _ _ _ ⟨rfl, property, others, rfl, -, -, children⟩
      have next : all.take ((page + 1) * size) ++ property.children =
          all.take ((page + 1 + 1) * size) := by
        rw [children, Nat.succ_mul (page + 1), List.take_add]
      have some : 0 < property.children.length := by
        rw [children, List.length_take, List.length_drop]
        omega
      have nonempty := List.isEmpty_eq_false_iff.2 (List.length_pos_iff.1 some)
      simp only [List.head?, nonempty, next, Bool.false_eq_true, if_false]
      refine ih _ ?_
      rw [← next, List.length_append]
      omega

end Pages

/-! ## All children -/

/-- What has been asked for the children of a property, `first` being the answer for page 0 and
`more` the further answers, and what came of it. -/
structure Fetched (command : Nat → Command) (asked : List Exchange)
    (first : Except SessionError Response) (more : List (Except SessionError Response))
    (result : Except DebugError (List Property)) : Prop where
  /-- After page 0 the pages are asked for that follow the one that was given, one by one. -/
  asked : asked = ⟨.submit (command 0) none, first⟩ :: furtherExchanges command (pageIn first) more
  /-- There are at most as many further requests as children were claimed at first. -/
  few : more.length ≤ countIn first
  /-- The children that the answers give are returned in order, or the error of one that fails. -/
  returned : result = ((first :: more).mapM childrenIn).map List.flatten
  /-- There are as many children as were claimed at first, or the last answer gave none. -/
  complete (children : List Property) (ok : result = .ok children) :
    countIn first ≤ children.length ∨ more.getLast?.map childrenIn = some (.ok [])

/-- An answer that is about no property is the only one. -/
theorem fetched_first {command : Nat → Command} {first : Except SessionError Response}
    (nothing : propertyIn? first = none) :
    Fetched command [⟨.submit (command 0) none, first⟩] first [] (childrenIn first) where
  asked := rfl
  few := Nat.zero_le _
  returned := by
    cases gives : childrenIn first <;>
      simp [gives, Except.map, bind, Except.bind, pure, Except.pure]
  complete _ _ := .inl (by simp [countIn, nothing])

/-- Further pages continue the first one. -/
theorem Continues.fetched {command : Nat → Command} {first : Except SessionError Response}
    {property : Property} {others : List Property} {more : List (Except SessionError Response)}
    {result : Except DebugError (List Property)} (told : foundIn first = .ok (property :: others))
    (continues : Continues property.childCount property.children more result) :
    Fetched command
      (⟨.submit (command 0) none, first⟩ :: furtherExchanges command property.page more) first more
      result := by
  have about : propertyIn? first = some property := by rw [propertyIn?, told]; rfl
  have count : countIn first = property.childCount := by rw [countIn, about]; rfl
  have page : pageIn first = property.page := by rw [pageIn, about]; rfl
  have children : childrenIn first = .ok property.children := by rw [childrenIn, told]; rfl
  refine ⟨by rw [page], ?_, ?_, ?_⟩
  · rw [count]
    exact Nat.le_trans continues.length_le (Nat.sub_le ..)
  · rw [continues.result_eq, List.mapM_cons, children]
    cases more.mapM childrenIn <;> simp [Except.map, bind, Except.bind, pure, Except.pure]
  · rintro found rfl
    rw [count]
    exact continues.complete

/-- The children of a property are fetched completely: from an engine that gives a list of children
in pages all of them are got, each once and in order, whatever the size of the pages; and any engine
at all is asked for the first page and for at most as many further ones as it claims children there,
page by page, and what it gives is returned in that order. -/
theorem propertyChildren_pages (rule : AnswerRule σ) (depth : Nat) (contextId : Option Nat)
    (fullName : String) (link : Link) (world : σ) (exchanges : List Exchange) :
    (∀ (size : Nat) (all : List Property), 1 ≤ size → all.length ≤ Text.maxWord →
      rule.Pages (pageCommand depth contextId fullName) size all →
        (propertyChildren depth contextId fullName).Ensures rule link world
          fun result after _ => after = link ∧ result = .ok all) ∧
      (propertyChildren depth contextId fullName).Ensures rule.recorded link (world, exchanges)
        fun result after last => after = link ∧ ∃ asked first more,
          last.2 = exchanges ++ asked ∧
            Fetched (pageCommand depth contextId fullName) asked first more result := by
  constructor
  · intro size all size_pos few pages
    refine (ensures_bind _ _).2 ((properties_pages pages (.inl rfl)).mono ?_)
    rintro _ _ _ ⟨rfl, property, others, rfl, count, page, children⟩
    rw [Nat.zero_mul, List.drop_zero, ← Nat.one_mul size] at children
    simp only [List.head?, count, page, children]
    exact addPages_pages pages size_pos few 0 (Nat.le_refl _)
  · refine (ensures_bind _ _).2 ((properties_ensures _).mono ?_)
    rintro _ _ _ ⟨rfl, rfl, rfl⟩
    dsimp only [AnswerRule.recorded]
    generalize (rule (.submit (pageCommand depth contextId fullName 0) none) world).1 = first
    have alone := @fetched_first (pageCommand depth contextId fullName) first
    rw [propertyIn?, childrenIn] at alone
    cases told : foundIn first with
    | error error =>
        rw [told] at alone
        exact ⟨rfl, _, first, [], rfl, alone rfl⟩
    | ok found =>
    rw [told] at alone
    cases found with
    | nil => exact (ensures_pure _).2 ⟨rfl, _, first, [], rfl, alone rfl⟩
    | cons property others =>
    refine (addPages_continues _ _ (Nat.le_refl _)).mono ?_
    rintro result after last ⟨rfl, more, exchanged, continues⟩
    refine ⟨rfl, _, first, more, ?_, continues.fetched told⟩
    rw [exchanged]
    exact List.append_assoc ..

/-- A property of which only the name is told. -/
def bareProperty (name : String) : Element :=
  { name := "property", attributes := [("name", name)], children := [], text := "" }

/-- A page of the children of a property that has three. -/
def pageOfThree (page : String) (children : List Element) : Response :=
  { command := "property_get", id := 1, error := none
    element := { name := "response", attributes := [], text := "", children := [
      { name := "property", text := "", children
        attributes := [("name", "o"), ("numchildren", "3"), ("page", page)] }] } }

/-- An engine that gives three children in pages of two. -/
def pagedByTwo : AnswerRule Unit := .ofEngine fun command world =>
  (.ok (if command.get? 'p' = some "1" then pageOfThree "1" [bareProperty "c"]
    else pageOfThree "0" [bareProperty "a", bareProperty "b"]), world)

/-- Three children. -/
def threeProperties : List Property :=
  ["a", "b", "c"].map fun name => Property.assemble (bareProperty name) [] none

/-- Both pages are fetched. -/
theorem propertyChildren_pages_of_two :
    pagedByTwo.Pages (pageCommand 0 none "o") 2 threeProperties ∧
      (propertyChildren 0 none "o").Ensures pagedByTwo Debugger.greeted () fun result after _ =>
        after = Debugger.greeted ∧ result = .ok threeProperties := by
  have pages : pagedByTwo.Pages (pageCommand 0 none "o") 2 threeProperties := by
    rintro page reached ⟨⟩
    obtain rfl | rfl : page = 0 ∨ page = 1 := by
      have : threeProperties.length = 3 := rfl
      omega
    · exact ⟨_, _, [], rfl, rfl, rfl, rfl, rfl⟩
    · exact ⟨_, _, [], rfl, rfl, rfl, rfl, rfl⟩
  exact ⟨pages, (propertyChildren_pages pagedByTwo 0 none "o" Debugger.greeted () []).1 2
    threeProperties (by decide) (by decide) pages⟩

end Link
end DebugBridge
