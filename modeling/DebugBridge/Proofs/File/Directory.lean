import DebugBridge.Proofs.File.Parent
import DebugBridge.Proofs.File.Tree

/-!
# What stands in a directory

In a file tree as there are any, each thing stands in a directory.  A path to a file names it in its
directory, and the path with another name in place of the last one leads to that name in the same
directory, however the directory is spelled.
-/

namespace DebugBridge
namespace FileTree

open DebugBridge.Path Text

variable {tree : FileTree} {path name : String} {place : Place} {entry : Entry}
  {bytes : List UInt8} {components more : List String}

theorem at?_of_ne_nil (nonempty : place ≠ []) :
    tree.at? place = (tree.entries.find? fun entry => entry.1 == place).map Prod.snd :=
  if_neg (by simpa using nonempty)

/-- What is stored under a place is what is there, or hides it. -/
theorem exists_of_mem {stored : Place × Entry} (member : stored ∈ tree.entries)
    (nonempty : stored.1 ≠ []) : ∃ entry, tree.at? stored.1 = some entry := by
  rw [at?_of_ne_nil nonempty]
  cases found : tree.entries.find? fun entry => entry.1 == stored.1 with
  | none => exact absurd (beq_self_eq_true stored.1) (List.find?_eq_none.1 found stored member)
  | some entry => exact ⟨entry.2, rfl⟩

/-- Whatever there is stands in a directory, and relative paths start from one. -/
structure Proper (tree : FileTree) : Prop where
  /-- What is not the root stands in a directory. -/
  parent : ∀ place entry, tree.at? place = some entry → tree.at? place.dropLast = some .directory
  /-- The working directory is one. -/
  working : tree.at? tree.workingPlace = some .directory

/-- What stands above anything is a directory. -/
theorem Proper.above (proper : tree.Proper) {below : Place} (nonempty : below ≠ [])
    (held : tree.at? (place ++ below) = some entry) : tree.at? place = some .directory := by
  induction below using List.reverseRecOn generalizing entry with
  | nil => exact absurd rfl nonempty
  | append_singleton below name ih =>
      have parent := proper.parent _ _ held
      rw [← List.append_assoc, List.dropLast_concat] at parent
      by_cases none : below = []
      · rwa [none, List.append_nil] at parent
      · exact ih none parent

/-- It is enough to look at what is stored. -/
theorem proper_iff : tree.Proper ↔
    (∀ stored ∈ tree.entries, tree.at? stored.1.dropLast = some .directory) ∧
      tree.at? tree.workingPlace = some .directory := by
  constructor
  · refine fun proper => ⟨fun stored member => ?_, proper.working⟩
    by_cases root : stored.1 = []
    · rw [root]
      rfl
    · obtain ⟨entry, held⟩ := exists_of_mem member root
      exact proper.parent _ _ held
  · rintro ⟨parent, working⟩
    refine ⟨fun place entry held => ?_, working⟩
    by_cases root : place = []
    · rw [root]
      rfl
    · rw [at?_of_ne_nil root, Option.map_eq_some_iff] at held
      obtain ⟨stored, found, -⟩ := held
      have here : stored.1 = place := beq_iff_eq.1 (List.find?_some found :)
      exact here ▸ parent stored (List.mem_of_find?_eq_some found)

instance (tree : FileTree) : Decidable tree.Proper := decidable_of_iff' _ proper_iff

/-! ## The steps of a path -/

/-- Whether a component of a path means something. -/
def isLive (component : String) : Bool := !(component == "" || component == ".")

theorem isLive_ofList (part : List Char) : isLive (String.ofList part) = !isIdle part := by
  have same (other : List Char) :
      (String.ofList part == String.ofList other) = (part == other) := by
    rw [Bool.eq_iff_iff, beq_iff_eq, beq_iff_eq, String.ofList_inj]
  have empty : (part == []) = part.isEmpty := by cases part <;> rfl
  rw [isLive, isIdle, ← empty]
  exact congrArg₂ (fun none dot => !(none || dot)) (same []) (same ['.'])

/-- From what is no directory nothing leads on. -/
theorem follow_stuck (other : tree.at? place ≠ some .directory) (nonempty : components ≠ [])
    (nonemptyMore : more ≠ []) : tree.follow place components = tree.follow place more := by
  obtain ⟨component, rest, rfl⟩ := List.exists_cons_of_ne_nil nonempty
  obtain ⟨next, later, rfl⟩ := List.exists_cons_of_ne_nil nonemptyMore
  rw [follow, follow]
  split
  · rfl
  · rfl
  · next directory => exact absurd directory other

/-- Idle components do not matter before the last one. -/
theorem follow_live (tree : FileTree) (place : Place) (components : List String) (last : String) :
    tree.follow place (components ++ [last]) =
      tree.follow place (components.filter isLive ++ [last]) := by
  induction components generalizing place with
  | nil => rfl
  | cons component components ih =>
      by_cases other : tree.at? place ≠ some .directory
      · exact follow_stuck other (by simp) (by simp)
      have directory := Decidable.not_not.1 other
      cases live : isLive component with
      | false =>
          have idle : (component == "" || component == ".") = true := by
            rwa [isLive, Bool.not_eq_false'] at live
          rw [List.filter_cons_of_neg (by simp [live]), List.cons_append, follow, directory, ← ih]
          exact if_pos idle
      | true =>
          rw [List.filter_cons_of_pos live, List.cons_append, List.cons_append, follow, follow,
            directory]
          simp only [ih]

theorem follow_append (tree : FileTree) (place : Place) (components more : List String) :
    tree.follow place (components ++ more) =
      (tree.follow place components).bind fun reached => tree.follow reached more := by
  induction components generalizing place with
  | nil => rfl
  | cons component components ih =>
      rw [List.cons_append, follow, follow]
      split
      · rfl
      · rfl
      · simp only [ih]
        split
        · rfl
        · split
          · rfl
          · split <;> rfl

/-- The last step leads from a directory. -/
theorem exists_of_follow_concat {last : String} {target : Place}
    (reached : tree.follow place (components ++ [last]) = .ok target) :
    ∃ directory, tree.follow place components = .ok directory ∧
      tree.at? directory = some .directory ∧ tree.follow directory [last] = .ok target := by
  rw [follow_append] at reached
  obtain ⟨directory, before, step⟩ := exists_of_bind_ok reached
  refine ⟨directory, before, ?_, step⟩
  rw [follow] at step
  split at step
  · cases step
  · cases step
  · assumption

/-- A name leads to itself in a directory, if it is not too long. -/
theorem follow_name (directory : tree.at? place = some .directory) (named : IsName name) :
    tree.follow place [name] =
      if nameLimit < name.utf8ByteSize then .error .tooLong else .ok (place ++ [name]) := by
  have live : ¬(name == "" || name == ".") = true := by
    intro idle
    rw [Bool.or_eq_true, beq_iff_eq, beq_iff_eq] at idle
    have visible := named.visible
    rcases idle with rfl | rfl <;> cases visible
  have apart : ¬(name == "..") = true := by
    intro up
    rw [beq_iff_eq] at up
    exact named.apart (by rw [up]; rfl)
  rw [follow, directory]
  simp only [live, apart, Bool.false_eq_true, if_false]
  rfl

/-- A component that means nothing does not lead to a file. -/
theorem isIdle_of_follow {last : List Char} {target : Place}
    (directory : tree.at? place = some .directory)
    (reached : tree.follow place [String.ofList last] = .ok target)
    (file : tree.at? target = some (.file bytes)) : isIdle last = false := by
  by_contra idle
  have same := isLive_ofList last
  rw [Bool.not_eq_false] at idle
  rw [idle, isLive, Bool.not_true, Bool.not_eq_false'] at same
  rw [follow, directory] at reached
  dsimp only at reached
  rw [if_pos same, follow] at reached
  cases reached
  cases directory.symm.trans file

/-- A file is reached by a name. -/
theorem exists_name_of_follow (proper : tree.Proper) {last : List Char}
    (plain : '/' ∉ last) (directory : tree.at? place = some .directory) {target : Place}
    (reached : tree.follow place [String.ofList last] = .ok target)
    (file : tree.at? target = some (.file bytes)) :
    IsName (String.ofList last) ∧ target = place ++ [String.ofList last] := by
  have visible := isIdle_of_follow directory reached file
  have apart : last ≠ ['.', '.'] := by
    rintro rfl
    rw [follow, directory] at reached
    have up : place.dropLast = target := Except.ok.inj reached
    rw [← up, proper.parent _ _ directory] at file
    cases file
  have named : IsName (String.ofList last) := by
    constructor <;> rwa [String.toList_ofList]
  rw [follow_name directory named] at reached
  split at reached
  · cases reached
  · cases reached
    exact ⟨named, rfl⟩

/-! ## Paths -/

/-- The directory where a path starts. -/
def startOf (tree : FileTree) (path : String) : Place :=
  if isAbsolute path then [] else tree.workingPlace

/-- A path is followed from its start, if the system does not find it too long. -/
theorem locate_eq (tree : FileTree) (whole : '\x00' ∉ path.toList) (nonempty : path ≠ "") :
    tree.locate path =
      if pathLimit < path.utf8ByteSize then .error .tooLong
      else tree.follow (tree.startOf path) (FileTree.components path) := by
  have whole : path.toList.contains '\x00' = false := by simpa using whole
  have nonempty : path.isEmpty = false := by simpa [String.isEmpty_iff] using nonempty
  unfold locate startOf
  rw [whole, nonempty, if_neg Bool.false_ne_true, if_neg Bool.false_ne_true]
  split
  · rfl
  · split <;> rfl

theorem follow_of_locate (located : tree.locate path = .ok place) :
    '\x00' ∉ path.toList ∧
      tree.follow (tree.startOf path) (FileTree.components path) = .ok place := by
  have whole : '\x00' ∉ path.toList := by
    intro zero
    rw [locate, if_pos (by simpa using zero)] at located
    cases located
  have nonempty : path ≠ "" := by
    rintro rfl
    cases located
  rw [locate_eq tree whole nonempty] at located
  split at located
  · cases located
  · exact ⟨whole, located⟩

theorem locate_of_find (found : tree.find path = .ok (place, entry)) :
    tree.locate path = .ok place := by
  obtain ⟨other, located, found⟩ := exists_of_bind_ok found
  split at found
  · cases found
    exact located
  · cases found

theorem find_eq (located : tree.locate path = .ok place) :
    tree.find path = match tree.at? place with
      | some entry => .ok (place, entry)
      | none => .error .notFound := by
  rw [find, located]
  rfl

theorem filter_isLive_map (parts : List (List Char)) :
    (parts.map String.ofList).filter isLive = (live parts).map String.ofList := by
  rw [live, List.filter_map]
  exact congrArg (List.map String.ofList) (List.filter_congr fun part _ => isLive_ofList part)

theorem exists_components (path : String) :
    ∃ front part, splitAtChar '/' path.toList = front ++ [part] ∧ '/' ∉ part ∧
      part ⊆ path.toList ∧
        FileTree.components path = front.map String.ofList ++ [String.ofList part] := by
  have nonempty := splitAtChar_ne_nil '/' path.toList
  have cut := List.dropLast_append_getLast nonempty
  have last := List.getLast_mem nonempty
  refine ⟨_, _, cut.symm, notMem_of_mem_splitAtChar last, subset_of_mem_splitAtChar last, ?_⟩
  rw [FileTree.components, ← List.map_singleton, ← List.map_append, cut]

/-- A file is reached by a last step from a directory. -/
theorem exists_steps (found : tree.find path = .ok (place, .file bytes)) :
    ∃ front part home, splitAtChar '/' path.toList = front ++ [part] ∧ '/' ∉ part ∧
      part ⊆ path.toList ∧
      FileTree.components path = front.map String.ofList ++ [String.ofList part] ∧
      tree.follow (tree.startOf path) (front.map String.ofList) = .ok home ∧
      tree.at? home = some .directory ∧ tree.follow home [String.ofList part] = .ok place := by
  obtain ⟨front, part, cut, plain, within, components⟩ := exists_components path
  obtain ⟨-, reached⟩ := follow_of_locate (locate_of_find found)
  rw [components] at reached
  obtain ⟨home, before, directory, step⟩ := exists_of_follow_concat reached
  exact ⟨front, part, home, cut, plain, within, components, before, directory, step⟩

/-- The path of a file has a directory. -/
theorem exists_parent (read : tree.read path = .ok bytes) :
    ∃ directory, Path.parent? path = some directory := by
  obtain ⟨place, found⟩ := exists_find_of_read read
  obtain ⟨front, part, home, cut, -, -, -, -, directory, step⟩ := exists_steps found
  have visible := isIdle_of_follow directory step (at?_of_find found)
  obtain ⟨text, leaves⟩ := exists_leaves cut visible
  exact ⟨text, leaves.parent⟩

/-- A path that ends with a name. -/
theorem endsInName_of_concat {front : List String}
    (whole : FileTree.components path = front ++ [name]) (named : IsName name) :
    endsInName path = true := by
  have visible := named.visible
  have nonempty : (name != "") = true := by
    rw [bne_iff_ne]
    rintro rfl
    cases visible
  rw [endsInName, whole, List.reverse_concat]
  simp only [List.find?_cons, nonempty, Option.any_some, Bool.and_eq_true, bne_iff_ne]
  constructor
  · rintro rfl
    cases visible
  · rintro rfl
    exact named.apart rfl

/-- A path names something in a directory, and any other name in its place leads to that name in the
same directory, if the system does not find it too long. -/
structure Houses (tree : FileTree) (path : String) (home : Place) (name : String) : Prop where
  /-- The last part of the path. -/
  fileName : fileName? path = some name
  /-- It is a name. -/
  named : IsName name
  /-- No character ends it. -/
  whole : '\x00' ∉ name.toList
  /-- What it stands in is a directory. -/
  directory : tree.at? home = some .directory
  /-- The path leads to it. -/
  located : tree.locate path = .ok (home ++ [name])
  /-- It does not end in dots. -/
  ends : endsInName path = true
  /-- Neither does the path with another name. -/
  endsSibling (other : String) (named : IsName other) : endsInName (withFileName path other) = true
  /-- A shorter name makes a shorter path. -/
  shorter (other longer : String) (named : IsName other) (namedLonger : IsName longer)
    (le : other.utf8ByteSize ≤ longer.utf8ByteSize) :
    (withFileName path other).utf8ByteSize ≤ (withFileName path longer).utf8ByteSize
  /-- The path with another name leads to that. -/
  sibling (other : String) (named : IsName other) (whole : '\x00' ∉ other.toList) :
    tree.locate (withFileName path other) =
      if pathLimit < (withFileName path other).utf8ByteSize then .error .tooLong
      else if nameLimit < other.utf8ByteSize then .error .tooLong
      else .ok (home ++ [other])

/-- A name below a directory, as components. -/
theorem exists_components_join (text : String) {other : String} (named : IsName other) :
    ∃ front, FileTree.components (join text other) = front ++ [other] ∧
      front.filter isLive = (live (splitAtChar '/' text.toList)).map String.ofList := by
  obtain ⟨front, cut, same⟩ := splitAtChar_join text named
  refine ⟨front.map String.ofList, ?_, by rw [filter_isLive_map, same]⟩
  rw [FileTree.components, cut, List.map_append, List.map_singleton, String.ofList_toList]

/-- A file is housed. -/
theorem exists_houses (proper : tree.Proper) (found : tree.find path = .ok (place, .file bytes)) :
    ∃ home name, place = home ++ [name] ∧ tree.Houses path home name := by
  have located := locate_of_find found
  obtain ⟨whole, -⟩ := follow_of_locate located
  obtain ⟨front, part, home, cut, plain, within, components, before, directory, step⟩ :=
    exists_steps found
  obtain ⟨named, rfl⟩ := exists_name_of_follow proper plain directory step (at?_of_find found)
  have visible : isIdle part = false := by simpa using named.visible
  have apart : part ≠ ['.', '.'] := by simpa using named.apart
  obtain ⟨text, leaves⟩ := exists_leaves cut visible
  refine ⟨home, String.ofList part, rfl, leaves.fileName apart, named, ?_, directory, located,
    endsInName_of_concat components named, ?_, ?_, ?_⟩
  · rw [String.toList_ofList]
    exact fun zero => whole (within zero)
  all_goals simp only [leaves.withFileName apart]
  · intro other named
    obtain ⟨otherFront, otherComponents, -⟩ := exists_components_join text named
    exact endsInName_of_concat otherComponents named
  · exact fun _ _ named namedLonger le => utf8ByteSize_join_le text named namedLonger le
  intro other named otherWhole
  obtain ⟨otherFront, otherComponents, same⟩ := exists_components_join text named
  have clear : '\x00' ∉ (join text other).toList := by
    intro zero
    rcases mem_join zero with inText | slash | inName
    · exact whole (leaves.begins.subset inText)
    · cases slash
    · exact otherWhole inName
  have nonempty : join text other ≠ "" := by
    intro none
    have ends := endsInName_of_concat otherComponents named
    rw [none] at ends
    cases ends
  have start : tree.startOf (join text other) = tree.startOf path := by
    rw [startOf, startOf, isAbsolute_join named, leaves.absolute]
  rw [locate_eq tree clear nonempty, start, otherComponents, follow_live, same, leaves.components,
    ← filter_isLive_map, ← follow_live, follow_append, before]
  exact congrArg _ (follow_name directory named)

end FileTree
end DebugBridge
