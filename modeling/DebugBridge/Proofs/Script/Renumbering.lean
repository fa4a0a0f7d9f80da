import DebugBridge.Proofs.Script.Tree
import DebugBridge.Script.Resolution

/-!
# Renumbered lines

When lines are put into a file, the lines after them get new numbers.  The nodes of the longer file are
those of the shorter one with their lines renumbered, but for skipped regions on the new lines.  Then
the same lines are blocked under their new numbers, and a line breakpoint goes to the same line.
-/

namespace DebugBridge

/-- The number of a line once `count` lines are put in after the first `first` ones. -/
def renumber (first count line : Nat) : Nat := if line ≤ first then line else line + count

section Renumber

variable {first count line other : Nat}

theorem renumber_le_renumber : renumber first count line ≤ renumber first count other ↔ line ≤ other := by
  unfold renumber
  split <;> split <;> omega

theorem renumber_inj : renumber first count line = renumber first count other ↔ line = other := by
  unfold renumber
  split <;> split <;> omega

theorem renumber_outside : renumber first count line ≤ first ∨ first + count < renumber first count line := by
  unfold renumber
  split <;> omega

/-- Every line but the new ones has its number from an old line. -/
theorem exists_renumber (outside : line ≤ first ∨ first + count < line) :
    ∃ old, renumber first count old = line := by
  rcases outside with before | after
  · exact ⟨line, if_pos before⟩
  · exact ⟨line - count, by rw [renumber, if_neg (by omega)]; omega⟩

end Renumber

/-- A position whose line has a new number. -/
def Position.renumber (first count : Nat) (position : Position) : Position :=
  { position with line := DebugBridge.renumber first count position.line }

/-- A stretch of a file with its lines renumbered. -/
structure Location.Renumbered (first count : Nat) (location moved : Location) : Prop where
  file_eq : moved.file = location.file
  first_eq : moved.first = location.first.renumber first count
  last_eq : moved.last = location.last.renumber first count

/-- What a node is, with the line of its brace renumbered; the parameters of a function may have
come to hold what is put in between them. -/
inductive Kind.Renumbered (first count : Nat) : Kind → Kind → Prop
  | skip : Renumbered first count .skip .skip
  | inclusion (directive : Directive) (again : Bool) (resolved : Option String) :
      Renumbered first count (.inclusion directive again resolved)
        (.inclusion directive again resolved)
  | classDef (name : String) (base : Option String) (line : Nat) :
      Renumbered first count (.classDef name base line)
        (.classDef name base (renumber first count line))
  | function (name : String) (isStatic : Bool) (params params' : String) (line : Option Nat) :
      Renumbered first count (.function name isStatic params line)
        (.function name isStatic params' (line.map (renumber first count)))
  | property (name : String) (isStatic : Bool) (params : Option String) (line : Option Nat) :
      Renumbered first count (.property name isStatic params line)
        (.property name isStatic params (line.map (renumber first count)))

/-- Nodes with their lines renumbered, among them skipped regions on the new lines.  A property has
as many accessors as before. -/
inductive Node.Renumbered (first count : Nat) : List Node → List Node → Prop
  | nil : Renumbered first count [] []
  | inserted {scope : List String} {location : Location} {nodes nodes' : List Node}
      (after : first < location.first.line) (before : location.last.line ≤ first + count)
      (rest : Renumbered first count nodes nodes') :
      Renumbered first count nodes (.mk .skip scope location [] :: nodes')
  | moved {kind kind' : Kind} {scope : List String} {location location' : Location}
      {nested nested' nodes nodes' : List Node} (kinds : Kind.Renumbered first count kind kind')
      (places : Location.Renumbered first count location location')
      (accessors : kind.isProperty = true → nested'.length = nested.length)
      (inside : Renumbered first count nested nested') (rest : Renumbered first count nodes nodes') :
      Renumbered first count (.mk kind scope location nested :: nodes)
        (.mk kind' scope location' nested' :: nodes')

section Nodes

variable {first count : Nat} {kind kind' : Kind} {location location' : Location}

theorem Kind.Renumbered.name?_eq (kinds : Kind.Renumbered first count kind kind') :
    kind'.name? = kind.name? := by
  cases kinds <;> rfl

theorem Kind.Renumbered.isInclusion_eq (kinds : Kind.Renumbered first count kind kind') :
    kind'.isInclusion = kind.isInclusion := by
  cases kinds <;> rfl

theorem Kind.Renumbered.isClass_eq (kinds : Kind.Renumbered first count kind kind') :
    kind'.isClass = kind.isClass := by
  cases kinds <;> rfl

namespace Node.Renumbered

variable {nodes nodes' others others' nested nested' : List Node} {scope : List String}

theorem length_le (renumbered : Renumbered first count nodes nodes') : nodes.length ≤ nodes'.length := by
  induction renumbered with
  | nil => exact Nat.le_refl _
  | inserted after before rest ih => exact Nat.le_succ_of_le ih
  | moved kinds places accessors inside rest _ ih => exact Nat.succ_le_succ ih

theorem append (front : Renumbered first count nodes nodes')
    (back : Renumbered first count others others') :
    Renumbered first count (nodes ++ others) (nodes' ++ others') := by
  induction front with
  | nil => exact back
  | inserted after before rest ih => exact .inserted after before ih
  | moved kinds places accessors inside rest _ ih => exact .moved kinds places accessors inside ih

/-! ## Blocked lines -/

theorem mem_linesBetween {line low high : Nat} :
    line ∈ linesBetween low high ↔ low ≤ line ∧ line ≤ high := by
  rw [linesBetween, List.mem_range'_1]
  omega

theorem mem_headerLines (places : Location.Renumbered first count location location')
    (braceLine : Option Nat) (line : Nat) :
    renumber first count line ∈ headerLines location' (braceLine.map (renumber first count)) ↔
      line ∈ headerLines location braceLine := by
  cases braceLine with
  | none => simp [headerLines]
  | some brace =>
      rw [Option.map_some, headerLines, headerLines, mem_linesBetween, mem_linesBetween,
        places.first_eq, Position.renumber, renumber_le_renumber, renumber_le_renumber]

theorem mem_blockedLines (kinds : Kind.Renumbered first count kind kind')
    (places : Location.Renumbered first count location location') (line : Nat)
    (inner : renumber first count line ∈ blockedLinesAll nested' ↔ line ∈ blockedLinesAll nested)
    (accessors : kind.isProperty = true →
      (renumber first count line ∈ blockedAccessorLines nested' ↔
        line ∈ blockedAccessorLines nested)) :
    renumber first count line ∈ (mk kind' scope location' nested').blockedLines ↔
      line ∈ (mk kind scope location nested).blockedLines := by
  cases kinds with
  | skip =>
      rw [blockedLines, blockedLines, mem_linesBetween, mem_linesBetween, places.first_eq,
        places.last_eq, Position.renumber, Position.renumber, renumber_le_renumber,
        renumber_le_renumber]
  | inclusion directive again resolved =>
      rw [blockedLines, blockedLines, List.mem_singleton, List.mem_singleton, places.first_eq,
        Position.renumber, renumber_inj]
  | classDef name base brace =>
      rw [blockedLines, blockedLines, List.mem_append, List.mem_append, inner,
        ← mem_headerLines places (some brace), Option.map_some]
  | function name isStatic params params' brace =>
      rw [blockedLines, blockedLines, List.mem_append, List.mem_append, inner,
        mem_headerLines places brace]
  | property name isStatic params brace =>
      rw [blockedLines, blockedLines, List.mem_append, List.mem_append, accessors rfl,
        mem_headerLines places brace]

/-- The blocked lines are the same ones. -/
theorem mem_blocked (renumbered : Renumbered first count nodes nodes') (line : Nat) :
    (renumber first count line ∈ blockedLinesAll nodes' ↔ line ∈ blockedLinesAll nodes) ∧
      (nodes'.length = nodes.length → nodes'.map name? = nodes.map name? ∧
        (renumber first count line ∈ blockedAccessorLines nodes' ↔
          line ∈ blockedAccessorLines nodes)) := by
  induction renumbered with
  | nil => simp [blockedLinesAll, blockedAccessorLines]
  | @inserted scope location nodes nodes' after before rest ih =>
      refine ⟨?_, fun same => ?_⟩
      · rw [blockedLinesAll, List.mem_append, ih.1, blockedLines, mem_linesBetween]
        have outside : renumber first count line ≤ first ∨ first + count < renumber first count line :=
          renumber_outside
        exact or_iff_right (by omega)
      · have := rest.length_le
        rw [List.length_cons] at same
        omega
  | @moved kind kind' scope location location' nested nested' nodes nodes' kinds places accessors
      inside rest ihInside ihRest =>
      have here : renumber first count line ∈ (mk kind' scope location' nested').blockedLines ↔
          line ∈ (mk kind scope location nested).blockedLines :=
        mem_blockedLines kinds places line ihInside.1 fun isProperty =>
          (ihInside.2 (accessors isProperty)).2
      refine ⟨?_, fun same => ?_⟩
      · rw [blockedLinesAll, blockedLinesAll, List.mem_append, List.mem_append, here, ihRest.1]
      · obtain ⟨names, later⟩ := ihRest.2 (by simpa using same)
        have name_eq : name? (mk kind' scope location' nested') = name? (mk kind scope location nested) :=
          kinds.name?_eq
        -- Whether an accessor counts depends on the names of the later ones alone.
        have counts : (nodes'.any fun node => (node.name? == some "get") ==
              (name? (mk kind' scope location' nested') == some "get")) =
            nodes.any fun node => (node.name? == some "get") ==
              (name? (mk kind scope location nested) == some "get") := by
          have any_eq (list : List Node) (isGetter : Bool) :
              (list.any fun node => (node.name? == some "get") == isGetter) =
                (list.map name?).any fun name => (name == some "get") == isGetter := by
            rw [List.any_map]
            rfl
          rw [any_eq, any_eq, names, name_eq]
        refine ⟨by rw [List.map_cons, List.map_cons, names, name_eq], ?_⟩
        rw [blockedAccessorLines, blockedAccessorLines]
        dsimp only
        rw [counts, List.mem_append, List.mem_append, later]
        split
        · simp only [List.not_mem_nil]
        · rw [here]

/-! ## Resolved includes -/

/-- Where no file is entered, linking keeps nodes renumbered. -/
theorem exists_linkAll {follower : Follower}
    (stays : ∀ visited path scope inClass,
      follower.enter visited path scope inClass = some ([], visited))
    (renumbered : Renumbered first count nodes nodes') {inClass : Bool} {walk last : Walk}
    {linked : List Node} (found : linkAll follower inClass walk nodes = some (linked, last)) :
    ∃ linked', linkAll follower inClass walk nodes' = some (linked', last) ∧
      Renumbered first count linked linked' ∧ linked.length = nodes.length ∧
      linked'.length = nodes'.length := by
  induction renumbered generalizing inClass walk last linked with
  | nil =>
      rw [linkAll] at found
      cases found
      exact ⟨[], by rw [linkAll], .nil, rfl, rfl⟩
  | @inserted scope location nodes nodes' after before rest ih =>
      obtain ⟨linked', found', moved, same, same'⟩ := ih found
      refine ⟨.mk .skip scope location [] :: linked', ?_, .inserted after before moved, same, ?_⟩
      · simp [linkAll, link, found']
      · rw [List.length_cons, List.length_cons, same']
  | @moved kind kind' scope location location' nested nested' nodes nodes' kinds places accessors
      inside rest ihInside ihRest =>
      obtain ⟨node, between, others, links, tail, rfl⟩ := Follower.linkAll_cons.1 found
      obtain ⟨others', tail', moved, same, same'⟩ := ihRest tail
      suffices ∃ node', follower.Links inClass walk (.mk kind' scope location' nested') node' between ∧
          Renumbered first count (node :: others) (node' :: others') by
        obtain ⟨node', links', whole⟩ := this
        refine ⟨node' :: others', ?_, whole, by simp [same], by simp [same']⟩
        exact Follower.linkAll_cons.2 ⟨node', between, others', links', tail', rfl⟩
      cases links with
      | unresolved fails =>
          cases kinds
          exact ⟨_, .unresolved fails, .moved (.inclusion _ _ _) places (fun _ => rfl) .nil moved⟩
      | directory names directory =>
          cases kinds
          exact ⟨_, .directory names directory,
            .moved (.inclusion _ _ _) places (fun _ => rfl) .nil moved⟩
      | file names file enters =>
          cases kinds
          rw [stays] at enters
          cases enters
          exact ⟨_, .file names file (stays _ _ _ _),
            .moved (.inclusion _ _ _) places (fun _ => rfl) .nil moved⟩
      | other other within =>
          obtain ⟨inner', within', moved', length, length'⟩ := ihInside within
          rw [← kinds.isClass_eq] at within'
          refine ⟨_, .other (kinds.isInclusion_eq.trans other) within',
            .moved kinds places (fun isProperty => ?_) moved' moved⟩
          rw [length', accessors isProperty, length]

end Node.Renumbered

end Nodes

/-! ## Line breakpoints -/

/-- The first line of a kind is the same one when no new line is of that kind. -/
theorem find?_renumber {first count low high : Nat} {p q : Nat → Bool} (inFile : first ≤ high)
    (same : ∀ line, q (renumber first count line) = p line)
    (passed : ∀ line, first < line → line ≤ first + count → q line = false) :
    (linesBetween (max (renumber first count low) 1) (high + count)).find? q =
      ((linesBetween (max low 1) high).find? p).map (renumber first count) := by
  -- A line of the longer file is a new one or has its number from an old one.
  have fails {line : Nat} (old : ∀ other, renumber first count other = line → p other = false) :
      q line = false := by
    by_cases new : first < line ∧ line ≤ first + count
    · exact passed line new.1 new.2
    · obtain ⟨other, rfl⟩ : ∃ other, renumber first count other = line :=
        exists_renumber (by omega)
      rw [same]
      exact old other rfl
  have lower {line : Nat} (le : max (renumber first count low) 1 ≤ renumber first count line) :
      max low 1 ≤ line := by
    unfold renumber at le
    split at le <;> split at le <;> omega
  have upper {line : Nat} (le : renumber first count line ≤ high + count) : line ≤ high := by
    unfold renumber at le
    split at le <;> omega
  unfold linesBetween
  cases found : (List.range' (max low 1) (high + 1 - max low 1)).find? p with
  | none =>
      rw [List.find?_range'_eq_none] at found
      rw [Option.map_none, List.find?_range'_eq_none]
      intro line after before
      rw [fails]
      · rfl
      · rintro other rfl
        have low := lower after
        have high : other ≤ high := upper (by omega)
        simpa using found other low (by omega)
  | some line =>
      rw [List.find?_range'_eq_some, List.mem_range'_1] at found
      obtain ⟨holds, inside, earlier⟩ := found
      rw [Option.map_some, List.find?_range'_eq_some, List.mem_range'_1, same]
      refine ⟨holds, ?_, fun other after before => ?_⟩
      · unfold renumber
        split <;> split <;> omega
      · rw [fails]
        · rfl
        · rintro old rfl
          rw [← Nat.not_le, renumber_le_renumber, Nat.not_le] at before
          simpa using earlier old (lower after) before

namespace ScannedFile

/-- Where a line breakpoint goes, renumbered. -/
def renumberResult (first count : Nat) (result : LineResolution) : LineResolution :=
  { result with line := renumber first count result.line }

/-- With blank lines put in, a line breakpoint goes to the same line as before. -/
theorem resolveLine_renumber {file longer : ScannedFile} {first count : Nat}
    (inFile : first ≤ file.lineCount) (lines : longer.lineCount = file.lineCount + count)
    (same : ∀ line, longer.hasCode (renumber first count line) = file.hasCode line)
    (blank : ∀ line, first < line → line ≤ first + count → longer.hasCode line = false)
    (nodes : Node.Renumbered first count file.nodes longer.nodes) (requested : Nat) :
    longer.resolveLine (renumber first count requested) =
      renumberResult first count (file.resolveLine requested) := by
  have found : (linesBetween (max (renumber first count requested) 1) longer.lineCount).find?
      (fun line => !longer.blockedLines.contains line && longer.hasCode line) =
        ((linesBetween (max requested 1) file.lineCount).find?
          fun line => !file.blockedLines.contains line && file.hasCode line).map
            (renumber first count) := by
    rw [lines]
    refine find?_renumber inFile (fun line => ?_) fun line after before => ?_
    · have blocked := (nodes.mem_blocked line).1
      rw [same, blockedLines, blockedLines, List.contains_eq_mem, List.contains_eq_mem,
        decide_eq_decide.2 blocked]
    · rw [blank line after before, Bool.and_false]
  rw [resolveLine, resolveLine, found]
  cases (linesBetween (max requested 1) file.lineCount).find?
    fun line => !file.blockedLines.contains line && file.hasCode line <;> rfl

end ScannedFile
end DebugBridge
