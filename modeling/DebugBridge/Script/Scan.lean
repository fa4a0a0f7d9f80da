import DebugBridge.Script.Outline

/-!
Scanning of one file.  Every turn of the scan goes on after where it stood, and what it finds has
its inside after that place too; so the scan of a file ends, whatever its text.
-/

namespace DebugBridge
namespace Source

/-- The line after an offset inside the file starts after that offset. -/
theorem lt_nextLineStart {source : Source} {pos index : Nat} (le : pos ≤ index)
    (inFile : pos < source.size) : pos < source.nextLineStart index := by
  unfold nextLineStart
  cases found : source.lineStarts.find? fun start => index < start with
  | none => simpa using inFile
  | some start =>
    have after := Array.find?_some found
    simp only [decide_eq_true_eq] at after
    simp only [Option.getD_some]
    omega

/-- A brace that follows a header stands no earlier than the header. -/
theorem le_of_braceAfter? {source : Source} {pos index brace : Nat} {sameLine : Option Nat}
    (le : pos ≤ index) (same : ∀ offset, sameLine = some offset → pos ≤ offset)
    (found : source.braceAfter? index sameLine = some brace) : pos ≤ brace := by
  unfold braceAfter? at found
  cases sameLine with
  | some offset =>
    simp only [Option.some.injEq] at found
    exact found ▸ same offset rfl
  | none =>
    simp only [Option.bind_eq_bind, Option.bind_eq_some_iff] at found
    obtain ⟨start, line, found⟩ := found
    have after := Array.find?_some line
    simp only [Bool.and_eq_true, decide_eq_true_eq] at after
    split at found
    · simp only [Option.some.injEq] at found
      omega
    · simp at found

/-- Whether every end that following braces has found lies after an offset. -/
def EndsAfter (low : Nat) : Sum Nat (Option Nat) → Prop
  | .inl stop => low < stop
  | .inr settled => ∀ stop, settled = some stop → low < stop

/-- Following braces finds ends after where it starts. -/
theorem closingFrom_after (source : Source) (low braceLine margin : Nat) :
    ∀ (bytes : List UInt8) (depth : Nat) (settled : Option Nat) (index : Nat), low ≤ index →
      (∀ stop, settled = some stop → low < stop) →
      EndsAfter low (source.closingFrom braceLine margin depth settled index bytes)
  | [], _, _, _, _, ends => by simpa only [closingFrom, EndsAfter] using ends
  | b :: rest, depth, settled, index, le, ends => by
    have next : low ≤ index + 1 := by omega
    have go := fun depth settled => closingFrom_after source low braceLine margin rest
      depth settled (index + 1) next
    unfold closingFrom
    split
    · exact go _ _ ends
    · split
      · split
        · show low < index + 1
          omega
        · refine go _ _ ?_
          intro stop eq
          cases settled with
          | none =>
            simp only [Option.orElse_eq_orElse, Option.orElse_eq_or, Option.none_or,
              Option.some.injEq] at eq
            omega
          | some first =>
            simp only [Option.orElse_eq_orElse, Option.orElse_eq_or, Option.some_or] at eq
            exact ends stop eq
      · split
        · exact go _ _ ends
        · exact go _ _ ends

/-- A block ends after its brace. -/
theorem lt_blockEnd {source : Source} {pos brace margin : Nat} (le : pos ≤ brace)
    (inFile : pos < source.size) : pos < source.blockEnd brace margin := by
  have closing := closingFrom_after source pos (source.lineOf brace) margin
    (source.masked.extract brace source.size).toList 0 none brace le (by simp)
  unfold blockEnd
  dsimp only
  split
  · rename_i stop eq
    rw [eq] at closing
    exact closing
  · rename_i settled eq
    rw [eq] at closing
    cases candidate : ((source.lineStarts.filter (brace < ·)).map fun start =>
        start + source.indent start).find? fun index =>
          source.byteAt index == 125 && source.indent index ≤ margin with
    | some index =>
      have member := Array.mem_of_find?_eq_some candidate
      simp only [Array.mem_map, Array.mem_filter, decide_eq_true_eq] at member
      obtain ⟨start, ⟨_, after⟩, rfl⟩ := member
      simp only [Option.map_some, Option.orElse_eq_orElse, Option.orElse_eq_or, Option.some_or,
        Option.getD_some]
      omega
    | none =>
      cases settled with
      | none => simpa using inFile
      | some stop => simpa using closing stop rfl

/-- The parenthesis that closes another one does not stand before it. -/
theorem le_of_closingParen? (low paren : Nat) :
    ∀ (bytes : List UInt8) (depth index : Nat), low ≤ index →
      closingParen? depth index bytes = some paren → low ≤ paren
  | [], _, _, _, found => by simp [closingParen?] at found
  | b :: rest, depth, index, le, found => by
    have next : low ≤ index + 1 := by omega
    have go := fun depth => le_of_closingParen? low paren rest depth (index + 1) next
    unfold closingParen? at found
    split at found
    · exact go _ found
    · split at found
      · split at found
        · simp only [Option.some.injEq] at found
          omega
        · exact go _ found
      · exact go _ found

/-- What a turn goes on with, and what it has found, lies after `pos`. -/
def Advances (pos : Nat) (turn : Turn) : Prop :=
  pos < turn.next ∧ ∀ range ∈ turn.insides, pos < range.1

/-- A turn that finds something without an inside advances if it goes on later. -/
theorem advances_found {pos next : Nat} {kind : Kind} {location : Location} (lt : pos < next) :
    Advances pos (.found ⟨kind, location, none⟩ [] next) :=
  ⟨lt, by simp [Turn.insides]⟩

theorem advances_blockTurn? {source : Source} {kind : Nat → Kind} {start pos header brace : Nat}
    {turn : Turn} (le : pos ≤ brace) (inFile : pos < source.size)
    (found : source.blockTurn? kind start header brace = some turn) : Advances pos turn := by
  simp only [blockTurn?, Option.pure_def, Option.bind_eq_bind, Option.bind_eq_some_iff,
    Option.some.injEq] at found
  obtain ⟨_, _, rfl⟩ := found
  refine ⟨lt_blockEnd le inFile, ?_⟩
  simp only [Turn.insides, Option.toList, List.filterMap_nil, List.append_nil, List.mem_singleton]
  rintro _ rfl
  show pos < brace + 1
  omega

theorem advances_commentTurn? {source : Source} {pos : Nat} {turn : Turn}
    (inFile : pos < source.size) (found : source.commentTurn? pos = some turn) :
    Advances pos turn := by
  simp only [commentTurn?, Option.pure_def, Option.bind_eq_bind, Option.bind_eq_some_iff,
    Option.some.injEq] at found
  obtain ⟨_, _, rfl⟩ := found
  exact advances_found (lt_nextLineStart (by omega) inFile)

theorem advances_inclusionTurn? {source : Source} {pos : Nat} {header : Header.Inclusion}
    {turn : Turn} (inFile : pos < source.size)
    (found : source.inclusionTurn? pos header = some turn) : Advances pos turn := by
  simp only [inclusionTurn?, Option.pure_def, Option.bind_eq_bind, Option.bind_eq_some_iff,
    Option.some.injEq] at found
  obtain ⟨_, _, _, _, rfl⟩ := found
  exact advances_found (lt_nextLineStart (Nat.le_refl _) inFile)

theorem advances_directiveTurn? {source : Source} {pos : Nat} {turn : Turn}
    (inFile : pos < source.size) (found : source.directiveTurn? pos = some turn) :
    Advances pos turn := by
  simp only [directiveTurn?, Option.pure_def, Option.bind_eq_bind, Option.bind_eq_some_iff,
    Option.some.injEq] at found
  obtain ⟨_, _, rfl⟩ := found
  exact advances_found (lt_nextLineStart (Nat.le_refl _) inFile)

theorem advances_classTurn? {source : Source} {pos : Nat} {segment : List Char} {turn : Turn}
    (inFile : pos < source.size) (found : source.classTurn? pos segment = some (some turn)) :
    Advances pos turn := by
  unfold classTurn? at found
  split at found
  · simp at found
  · rename_i header _
    split at found
    · simp at found
    · split at found
      · simp at found
      · rename_i brace opening
        simp only [Option.map_eq_some_iff, Option.some.injEq, exists_eq_right] at found
        refine advances_blockTurn? (le_of_braceAfter? (Nat.le_refl pos) ?_ opening) inFile found
        intro offset same
        simp only [Option.map_eq_some_iff] at same
        obtain ⟨_, _, rfl⟩ := same
        omega

theorem le_of_functionBody? {source : Source} {paren headerEnd brace : Nat}
    (found : source.functionBody? paren headerEnd = some (.block (some brace))) :
    paren ≤ brace := by
  unfold functionBody? at found
  dsimp only at found
  split at found
  · simp at found
  · simp only [Option.some.injEq, FunctionBody.block.injEq] at found
    omega
  · split at found <;> simp at found

theorem advances_functionTurn? {source : Source} {pos limit : Nat} {segment : List Char}
    {turn : Turn} (inFile : pos < source.size)
    (found : source.functionTurn? pos limit segment = some (some turn)) : Advances pos turn := by
  unfold functionTurn? at found
  split at found
  · simp at found
  · rename_i header _
    split at found
    · simp at found
    · split at found
      · simp at found
      · dsimp only at found
        split at found
        · simp at found
        · rename_i paren closing
          have le : pos ≤ paren := le_of_closingParen? _ _ _ _ _ (by omega) closing
          split at found
          · simp at found
          · simp only [Option.pure_def, Option.bind_eq_bind, Option.bind_eq_some_iff,
              Option.some.injEq] at found
            obtain ⟨_, _, rfl⟩ := found
            exact advances_found (lt_nextLineStart (by omega) inFile)
          · rename_i sameLine body
            split at found
            · simp at found
            · rename_i brace opening
              simp only [Option.map_eq_some_iff, Option.some.injEq, exists_eq_right] at found
              refine advances_blockTurn? (le_of_braceAfter? le ?_ opening) inFile found
              intro offset same
              subst same
              exact Nat.le_trans le (le_of_functionBody? body)

/-- The inside of an accessor lies after an offset that its line does not start before. -/
theorem lt_of_accessor? {source : Source} {pos start resume : Nat} {accessor : Opener}
    (le : pos ≤ start) (found : source.accessor? start = some (some (accessor, resume))) :
    ∀ range, accessor.inside = some range → pos < range.1 := by
  unfold accessor? at found
  split at found
  · simp at found
  · dsimp only at found
    split at found
    · simp only [Option.pure_def, Option.bind_eq_bind, Option.bind_eq_some_iff,
        Option.some.injEq, Prod.mk.injEq] at found
      obtain ⟨_, _, rfl, _⟩ := found
      simp
    · rename_i name ending _ _
      split at found
      · simp at found
      · rename_i brace opening
        simp only [Option.pure_def, Option.bind_eq_bind, Option.bind_eq_some_iff,
          Option.some.injEq, Prod.mk.injEq] at found
        obtain ⟨_, _, rfl, _⟩ := found
        rintro _ ⟨⟩
        have : pos ≤ brace := by
          refine le_of_braceAfter? le ?_ opening
          intro offset same
          split at same
          · simp only [Option.some.injEq] at same
            omega
          · simp at same
        show pos < brace + 1
        omega

theorem lt_of_accessorsFrom (source : Source) (pos : Nat) :
    ∀ (starts : List Nat) (resume : Nat) (found : List Opener), (∀ start ∈ starts, pos ≤ start) →
      source.accessorsFrom resume starts = some found →
      ∀ accessor ∈ found, ∀ range, accessor.inside = some range → pos < range.1
  | [], _, found, _, eq => by
    simp only [accessorsFrom, Option.some.injEq] at eq
    subst eq
    simp
  | start :: rest, resume, found, le, eq => by
    have go := fun resume found => lt_of_accessorsFrom source pos rest resume
      found fun start mem => le start (List.mem_cons_of_mem _ mem)
    unfold accessorsFrom at eq
    split at eq
    · exact go _ _ eq
    · simp only [Option.pure_def, Option.bind_eq_bind, Option.bind_eq_some_iff] at eq
      obtain ⟨step, head, eq⟩ := eq
      split at eq
      · exact go _ _ eq
      · simp only [Option.bind_eq_some_iff, Option.some.injEq] at eq
        obtain ⟨others, tail, rfl⟩ := eq
        intro accessor mem
        rcases List.mem_cons.1 mem with rfl | mem
        · exact lt_of_accessor? (le start List.mem_cons_self) head
        · exact go _ _ tail accessor mem

theorem lt_of_accessors? {source : Source} {pos brace stop : Nat} {found : List Opener}
    (le : pos ≤ brace) (eq : source.accessors? brace stop = some found) :
    ∀ accessor ∈ found, ∀ range, accessor.inside = some range → pos < range.1 := by
  refine lt_of_accessorsFrom _ _ _ _ _ ?_ eq
  intro start mem
  simp only [List.mem_filter, Bool.and_eq_true, decide_eq_true_eq] at mem
  omega

theorem advances_propertyTurn? {source : Source} {pos limit : Nat} {segment : List Char}
    {turn : Turn} (inFile : pos < source.size)
    (found : source.propertyTurn? pos limit segment = some (some turn)) : Advances pos turn := by
  unfold propertyTurn? at found
  split at found
  · simp at found
  · split at found
    · simp at found
    · split at found
      · simp at found
      · dsimp only at found
        split at found
        · simp only [Option.pure_def, Option.bind_eq_bind, Option.bind_eq_some_iff,
            Option.some.injEq] at found
          obtain ⟨_, _, rfl⟩ := found
          exact advances_found (lt_nextLineStart (Nat.le_refl _) inFile)
        · split at found
          · simp at found
          · rename_i brace opening
            simp only [Option.pure_def, Option.bind_eq_bind, Option.bind_eq_some_iff,
              Option.some.injEq] at found
            obtain ⟨_, _, _, inner, rfl⟩ := found
            have le : pos ≤ brace := by
              refine le_of_braceAfter? (Nat.le_refl pos) ?_ opening
              intro offset same
              split at same
              · simp only [Option.some.injEq] at same
                omega
              · simp at same
            refine ⟨lt_blockEnd le inFile, ?_⟩
            simp only [Turn.insides, Option.toList, List.nil_append, List.mem_filterMap]
            rintro range ⟨accessor, mem, eq⟩
            exact lt_of_accessors? le inner accessor mem range eq

theorem advances_declarationTurn? {source : Source} {pos limit : Nat} {inClass : Bool}
    {segment : List Char} {turn : Turn} (inFile : pos < source.size)
    (found : source.declarationTurn? pos limit inClass segment = some turn) :
    Advances pos turn := by
  have pass : Advances pos (.pass (source.nextLineStart pos)) :=
    ⟨lt_nextLineStart (Nat.le_refl _) inFile, by simp [Turn.insides]⟩
  simp only [declarationTurn?, Option.pure_def, Option.bind_eq_bind,
    Option.bind_eq_some_iff] at found
  obtain ⟨classTurn, inClassTurn, found⟩ := found
  split at found
  · simp only [Option.some.injEq] at found
    exact advances_classTurn? inFile (found ▸ inClassTurn)
  · simp only [Option.bind_eq_some_iff] at found
    obtain ⟨functionTurn, inFunctionTurn, found⟩ := found
    split at found
    · simp only [Option.some.injEq] at found
      exact advances_functionTurn? inFile (found ▸ inFunctionTurn)
    · split at found
      · simp only [Option.bind_eq_some_iff] at found
        obtain ⟨propertyTurn, inPropertyTurn, found⟩ := found
        split at found
        · simp only [Option.some.injEq] at found
          exact advances_propertyTurn? inFile (found ▸ inPropertyTurn)
        · simp only [Option.some.injEq] at found
          exact found ▸ pass
      · simp only [Option.some.injEq] at found
        exact found ▸ pass

/-- A turn inside a file goes on after its place, and what it finds has its inside after it. -/
theorem turnAt?_advances {source : Source} {pos limit : Nat} {inClass : Bool} {turn : Turn}
    (inFile : pos < source.size) (found : source.turnAt? pos limit inClass = some turn) :
    Advances pos turn := by
  simp only [turnAt?, Option.pure_def, Option.bind_eq_bind, Option.bind_eq_some_iff] at found
  obtain ⟨segment, _, found⟩ := found
  split at found
  · exact advances_commentTurn? inFile found
  · split at found
    · simp only [Option.some.injEq] at found
      subst found
      exact ⟨lt_nextLineStart (Nat.le_refl _) inFile, by simp [Turn.insides]⟩
    · split at found
      · split at found
        · exact advances_inclusionTurn? inFile found
        · split at found
          · exact advances_directiveTurn? inFile found
          · exact advances_declarationTurn? inFile found
      · exact advances_declarationTurn? inFile found

set_option linter.unusedVariables false in
/-- The nodes between an offset and `limit`, `scope` naming what encloses them. -/
def scan? (source : Source) (pos limit : Nat) (scope : List String) (inClass : Bool) :
    Option (List Node) :=
  if inFile : pos < limit ∧ pos < source.size then
    match found : source.turnAt? pos limit inClass with
    | none => none
    | some (.pass next) => source.scan? next limit scope inClass
    | some (.found opener accessors next) => do
      let inner := scope ++ opener.kind.name?.toList
      let inside ← match within : opener.inside with
        | none => pure []
        | some range => source.scan? range.1 range.2 inner opener.kind.isClass
      let nested ← accessors.attach.mapM fun ⟨accessor, mem⟩ => do
        let inside ← match within : accessor.inside with
          | none => pure []
          | some range => source.scan? range.1 range.2 (inner ++ accessor.kind.name?.toList) false
        return Node.mk accessor.kind inner accessor.location inside
      let others ← source.scan? next limit scope inClass
      return .mk opener.kind scope opener.location (inside ++ nested) :: others
  else some []
termination_by source.size - pos
decreasing_by
  all_goals have advances := turnAt?_advances inFile.2 found
  · have := advances.1
    simp only [Turn.next] at this
    omega
  · have := advances.2 range (by
      simp only [Turn.insides, List.mem_append, List.mem_filterMap]
      exact .inr ⟨accessor, mem, within⟩)
    omega
  · have := advances.1
    simp only [Turn.next] at this
    omega
  · have := advances.2 range (by simp [Turn.insides, within])
    omega

end Source
end DebugBridge
