import DebugBridge.Proofs.Script.Blocking
import DebugBridge.Proofs.Script.Renumbering
import Mathlib.Order.Bounds.Basic

/-!
# Where a line breakpoint goes

The lines that are blocked in a file are those that some node of its own tree takes, however deep the
node stands; what stands in an included file takes none.  A breakpoint goes to the least line at or
after the requested one that has code and is taken by no node.  So a line to which a breakpoint goes
keeps it, and of two requests the earlier one goes no further than the later one.
-/

namespace DebugBridge
namespace Node

/-- Whether a line belongs to a node so that the engine never stops there: any line of a skipped region,
the line of an include directive, and the lines of the header of a declaration that has a brace. -/
def Takes (node : Node) (line : Nat) : Prop :=
  match node.kind with
  | .skip => node.location.first.line ≤ line ∧ line ≤ node.location.last.line
  | .inclusion _ _ _ => line = node.location.first.line
  | .classDef _ _ braceLine => node.location.first.line ≤ line ∧ line ≤ braceLine
  | .function _ _ _ braceLine | .property _ _ _ braceLine =>
    ∃ brace, braceLine = some brace ∧ node.location.first.line ≤ line ∧ line ≤ brace

variable {nodes : List Node} {node parent : Node} {line : Nat}

theorem mem_headerLines_iff {location : Location} {braceLine : Option Nat} :
    line ∈ headerLines location braceLine ↔
      ∃ brace, braceLine = some brace ∧ location.first.line ≤ line ∧ line ≤ brace := by
  cases braceLine with
  | none => simp [headerLines]
  | some brace => simp [headerLines, Renumbered.mem_linesBetween]

theorem mem_ownLines_iff : line ∈ node.ownLines ↔ node.Takes line := by
  obtain ⟨kind, scope, location, nested⟩ := node
  cases kind with
  | skip =>
      rw [ownLines, Renumbered.mem_linesBetween]
      exact Iff.rfl
  | inclusion => exact List.mem_singleton
  | classDef =>
      rw [ownLines, mem_headerLines_iff]
      simp [Takes, kind, Node.location]
  | function | property => exact mem_headerLines_iff

/-! ## Blocked lines -/

theorem mem_blockedLinesAll_iff :
    line ∈ blockedLinesAll nodes ↔ ∃ node ∈ nodes, line ∈ node.blockedLines := by
  induction nodes with
  | nil => simp [blockedLinesAll]
  | cons first rest ih => simp [blockedLinesAll, ih]

/-- An accessor counts if it is one of its kind after which no other one follows. -/
theorem mem_accessors_iff : node ∈ parent.accessors ↔ parent.kind.isProperty = true ∧
    ∃ before after, parent.nested = before ++ node :: after ∧
      ∀ later ∈ after, (later.name? == some "get") ≠ (node.name? == some "get") := by
  refine ⟨exists_of_mem_accessors, ?_⟩
  rintro ⟨isProperty, before, after, split, last⟩
  rw [accessors, getter?, setter?, if_pos isProperty, if_pos isProperty, split, List.mem_append,
    Option.mem_toList, Option.mem_toList]
  cases getter : node.name? == some "get" with
  | true =>
      have others : (after.filter fun accessor => accessor.name? == some "get") = [] :=
        List.filter_eq_nil_iff.2 fun later member => getter ▸ last later member
      refine .inl ?_
      rw [List.filter_append, List.filter_cons_of_pos (by simpa using getter), others]
      exact List.getLast?_concat
  | false =>
      have others : (after.filter fun accessor => accessor.name? != some "get") = [] := by
        refine List.filter_eq_nil_iff.2 fun later member => ?_
        have other := last later member
        rw [getter, Ne, Bool.not_eq_false] at other
        simp [bne, other]
      refine .inr ?_
      rw [List.filter_append, List.filter_cons_of_pos (by simp [bne, getter]), others]
      exact List.getLast?_concat

theorem exists_of_mem_blockedAccessorLines (blocked : line ∈ blockedAccessorLines nodes) :
    ∃ before accessor after, nodes = before ++ accessor :: after ∧
      (∀ later ∈ after, (later.name? == some "get") ≠ (accessor.name? == some "get")) ∧
        line ∈ accessor.blockedLines := by
  induction nodes with
  | nil => simp [blockedAccessorLines] at blocked
  | cons first rest ih =>
      rw [blockedAccessorLines, List.mem_append] at blocked
      dsimp only at blocked
      rcases blocked with here | beyond
      · split at here
        · cases here
        · next last => exact ⟨[], first, rest, rfl, by simpa using last, here⟩
      · obtain ⟨before, accessor, after, rfl, last, here⟩ := ih beyond
        exact ⟨first :: before, accessor, after, rfl, last, here⟩

theorem Own.mono {others : List Node} (all : ∀ node ∈ nodes, Own others node)
    (own : Own nodes node) : Own others node := by
  induction own with
  | root member => exact all _ member
  | inner _ other stands ih => exact .inner ih other stands

/-- A line that is blocked because of a node is taken by the node or by one in it. -/
theorem exists_own_of_mem_blockedLines (nodes : List Node) : ∀ node ∈ nodes,
    ∀ line ∈ node.blockedLines, ∃ inner, Own [node] inner ∧ line ∈ inner.ownLines := by
  induction nodes using forest_induction with
  | nil => simp
  | cons kind scope location nested rest inside later =>
      rw [List.forall_mem_cons]
      refine ⟨fun line blocked => ?_, later⟩
      have root : Own [mk kind scope location nested] (mk kind scope location nested) :=
        .root List.mem_cons_self
      -- A line that is blocked because of a child is taken in the child, by induction.
      have below {child : Node} (other : kind.isInclusion = false)
          (stands : child.StandsIn (mk kind scope location nested))
          (blocked : line ∈ child.blockedLines) :
          ∃ inner, Own [mk kind scope location nested] inner ∧ line ∈ inner.ownLines := by
        obtain ⟨inner, own, takes⟩ := inside child stands.mem_nested line blocked
        exact ⟨inner, own.mono (List.forall_mem_singleton.2 (.inner root other stands)), takes⟩
      cases kind with
      | skip | inclusion => exact ⟨_, root, blocked⟩
      | classDef | function =>
          rw [blockedLines, List.mem_append] at blocked
          rcases blocked with header | deeper
          · exact ⟨_, root, header⟩
          · obtain ⟨child, member, blocked⟩ := mem_blockedLinesAll_iff.1 deeper
            exact below rfl (.inl ⟨rfl, member⟩) blocked
      | property =>
          rw [blockedLines, List.mem_append] at blocked
          rcases blocked with header | deeper
          · exact ⟨_, root, header⟩
          · obtain ⟨before, accessor, after, split, last, blocked⟩ :=
              exists_of_mem_blockedAccessorLines deeper
            exact below rfl (.inr (mem_accessors_iff.2 ⟨rfl, before, after, split, last⟩)) blocked

/-- The blocked lines of a file are those that the nodes of its own tree take. -/
theorem mem_blockedLinesAll_iff_takes {source : Source}
    (keeps : ∀ node ∈ nodes, Keeps source.Holds node) :
    line ∈ blockedLinesAll nodes ↔ ∃ node, Own nodes node ∧ node.Takes line := by
  constructor
  · intro blocked
    obtain ⟨node, member, blocked⟩ := mem_blockedLinesAll_iff.1 blocked
    obtain ⟨inner, own, takes⟩ := exists_own_of_mem_blockedLines nodes node member line blocked
    exact ⟨inner, own.mono (List.forall_mem_singleton.2 (.root member)), mem_ownLines_iff.1 takes⟩
  · rintro ⟨node, own, takes⟩
    exact own.blockedLines_subset keeps (ownLines_subset_blockedLines node (mem_ownLines_iff.2 takes))

end Node

namespace ScannedFile

variable {file : ScannedFile} {line requested : Nat}

/-- Whether the engine can stop on a line: its masked text is neither blank nor a lone brace, and no
node of the file's own tree takes it. -/
structure CanStop (file : ScannedFile) (line : Nat) : Prop where
  /-- There is code. -/
  code : ∃ text, file.source.lineText? line = some text ∧
    Text.trim text.toList ∉ [[], ['\x7b'], ['\x7d']]
  /-- No node takes the line. -/
  free (node : Node) (own : Node.Own file.nodes node) : ¬ node.Takes line

/-- The lines of a file at or after a requested one on which the engine can stop. -/
def stops (file : ScannedFile) (requested : Nat) : Set Nat :=
  {line | max requested 1 ≤ line ∧ line ≤ file.lineCount ∧ file.CanStop line}

theorem hasCode_iff : file.hasCode line = true ↔ ∃ text, file.source.lineText? line = some text ∧
    Text.trim text.toList ∉ [[], ['\x7b'], ['\x7d']] := by
  rw [hasCode]
  cases file.source.lineText? line with
  | none => simp
  | some text => simp [and_assoc]

theorem executable_iff_canStop {source : Source}
    (keeps : ∀ node ∈ file.nodes, Node.Keeps source.Holds node) :
    file.Executable line ↔ file.CanStop line := by
  have blocked : line ∈ file.blockedLines ↔ _ := Node.mem_blockedLinesAll_iff_takes keeps
  constructor
  · rintro ⟨free, code⟩
    exact ⟨hasCode_iff.1 code, fun node own takes => free (blocked.2 ⟨node, own, takes⟩)⟩
  · rintro ⟨code, free⟩
    refine ⟨fun taken => ?_, hasCode_iff.2 code⟩
    obtain ⟨node, own, takes⟩ := blocked.1 taken
    exact free node own takes

/-- A breakpoint goes to the least line where the engine can stop, or stays where it is. -/
theorem resolveLine_spec {source : Source}
    (keeps : ∀ node ∈ file.nodes, Node.Keeps source.Holds node) (requested : Nat) :
    (∃ line, file.resolveLine requested = ⟨line, true⟩ ∧ IsLeast (file.stops requested) line) ∨
      file.resolveLine requested = ⟨requested, false⟩ ∧ file.stops requested = ∅ := by
  rcases file.resolveLine_cases requested with ⟨line, goes, after, executable, first⟩ | ⟨stays, none⟩
  · have range := executable.range
    refine .inl ⟨line, goes, ⟨by omega, range.2, (executable_iff_canStop keeps).1 executable⟩, ?_⟩
    rintro other ⟨after, -, stops⟩
    by_contra before
    exact first other (by omega) (by omega) ((executable_iff_canStop keeps).2 stops)
  · refine .inr ⟨stays, Set.eq_empty_of_forall_notMem ?_⟩
    rintro line ⟨after, -, stops⟩
    exact none line (by omega) ((executable_iff_canStop keeps).2 stops)

theorem stops_anti {later : Nat} (order : requested ≤ later) : file.stops later ⊆ file.stops requested :=
  fun _ ⟨after, inside, stops⟩ => ⟨by omega, inside, stops⟩

end ScannedFile

namespace IncludeContext

open Node Source

variable {context : IncludeContext} {host : Host} {path : String} {text : List Char}
  {file : ScannedFile}

theorem keeps_of_scanSource (scanned : context.scanSource host path text = .ok file) :
    ∃ source : Source, ∀ node ∈ file.nodes, Keeps source.Holds node := by
  rw [scanSource] at scanned
  split at scanned
  · next source nodes after found =>
    cases scanned
    obtain ⟨rfl, outline, base, outlined, linked⟩ := scanText_eq_some_iff.1 found
    exact ⟨_, keeps_linkAll (keeps_of_scan? (reads_ofText context.version path text) outlined) linked⟩
  · cases scanned

/-- Where a line breakpoint goes in a scanned file.  It is verified if the engine can stop on some line
at or after the requested one, and then it goes to the least such line; otherwise it stays on the
requested one.  The line to which it goes keeps a breakpoint, and an earlier request than one that is
verified is verified too, at a line no greater. -/
theorem resolveLine_least (scanned : context.scanSource host path text = .ok file) (requested : Nat) :
    ((file.resolveLine requested).verified = true ↔ (file.stops requested).Nonempty) ∧
      ((file.resolveLine requested).verified = true →
        IsLeast (file.stops requested) (file.resolveLine requested).line ∧
          file.resolveLine (file.resolveLine requested).line = file.resolveLine requested) ∧
      ((file.resolveLine requested).verified = false →
        (file.resolveLine requested).line = requested) ∧
      ∀ later, requested ≤ later → (file.resolveLine later).verified = true →
        (file.resolveLine requested).verified = true ∧
          (file.resolveLine requested).line ≤ (file.resolveLine later).line := by
  obtain ⟨source, keeps⟩ := keeps_of_scanSource scanned
  have spec := ScannedFile.resolveLine_spec keeps
  refine ⟨?_, fun verified => ?_, fun unverified => ?_, fun later order verified => ?_⟩
  · rcases spec requested with ⟨line, goes, least⟩ | ⟨stays, none⟩
    · simp [goes, least.nonempty]
    · simp [stays, none]
  · rcases spec requested with ⟨line, goes, least⟩ | ⟨stays, -⟩
    · rw [goes]
      refine ⟨least, ?_⟩
      -- The line is the least one after itself.
      have itself : IsLeast (file.stops line) line := by
        obtain ⟨⟨after, inside, stops⟩, -⟩ := least
        exact ⟨⟨by omega, inside, stops⟩, fun _ ⟨after, _⟩ => by omega⟩
      rcases spec line with ⟨other, goesOn, leastAfter⟩ | ⟨-, none⟩
      · rw [goesOn, leastAfter.unique itself]
      · exact absurd itself.nonempty (Set.not_nonempty_iff_eq_empty.2 none)
    · rw [stays] at verified
      cases verified
  · rcases spec requested with ⟨line, goes, -⟩ | ⟨stays, -⟩
    · rw [goes] at unverified
      cases unverified
    · rw [stays]
  · rcases spec later with ⟨line, goes, least⟩ | ⟨stays, -⟩
    · have candidate := ScannedFile.stops_anti order least.1
      rcases spec requested with ⟨first, goesFirst, leastFirst⟩ | ⟨-, none⟩
      · rw [goes, goesFirst]
        exact ⟨rfl, leastFirst.2 candidate⟩
      · rw [none] at candidate
        cases candidate
    · rw [stays] at verified
      cases verified

/-- A breakpoint on a comment goes past the header of the function after it. -/
theorem resolveLine_least_past_header :
    ∃ file, scanSource ⟨.v2, "a.ahk", none, "/", none⟩ ⟨⟨[], []⟩, ⟨[]⟩⟩ "a.ahk"
        "; c\nF()\n\x7b\n  x := 1\n\x7d\n".toList = .ok file ∧
      file.resolveLine 0 = ⟨4, true⟩ ∧ IsLeast (file.stops 0) 4 ∧
      file.resolveLine 5 = ⟨5, false⟩ ∧ ¬ (file.stops 5).Nonempty := by
  have looks : (scanSource ⟨.v2, "a.ahk", none, "/", none⟩ ⟨⟨[], []⟩, ⟨[]⟩⟩ "a.ahk"
      "; c\nF()\n\x7b\n  x := 1\n\x7d\n".toList).toOption.any fun file =>
        file.resolveLine 0 = ⟨4, true⟩ ∧ file.resolveLine 5 = ⟨5, false⟩ := by
    decide +kernel
  obtain ⟨file, scanned, goes⟩ := exists_ok_of_any looks
  rw [decide_eq_true_eq] at goes
  obtain ⟨goes, stays⟩ := goes
  have least := ((resolveLine_least scanned 0).2.1 (by rw [goes])).1
  have none := (resolveLine_least scanned 5).1
  rw [goes] at least
  rw [stays] at none
  exact ⟨file, scanned, goes, least, stays, fun some => Bool.false_ne_true (none.2 some)⟩

end IncludeContext
end DebugBridge
