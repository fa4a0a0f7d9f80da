import DebugBridge.Proofs.File.Directory
import Mathlib.Data.List.Find
import Mathlib.Logic.Function.Basic

/-!
# What changes in a file tree

Removing a file and renaming one change what is at one or two places, and nothing else: directories
stay, so that all paths lead where they led.
-/

namespace DebugBridge
namespace FileTree

variable {tree after : FileTree} {path target : String} {place source : Place} {entry : Entry}
  {bytes : List UInt8} {components : List String}

/-! ## Directories that stay -/

/-- The directories are still there. -/
structure Keeps (tree after : FileTree) : Prop where
  /-- A directory is one as before. -/
  directories : ∀ place, tree.at? place = some .directory → after.at? place = some .directory
  /-- Relative paths start where they started. -/
  working : after.workingPlace = tree.workingPlace

theorem Keeps.refl (tree : FileTree) : Keeps tree tree := ⟨fun _ directory => directory, rfl⟩

theorem Keeps.trans {last : FileTree} (first : Keeps tree after) (second : Keeps after last) :
    Keeps tree last where
  directories place directory := second.directories place (first.directories place directory)
  working := second.working.trans first.working

theorem Keeps.follow (keeps : Keeps tree after) {reached : Place}
    (follows : tree.follow place components = .ok reached) :
    after.follow place components = .ok reached := by
  induction components generalizing place with
  | nil => exact follows
  | cons component components ih =>
      rw [FileTree.follow] at follows ⊢
      split at follows
      · cases follows
      · cases follows
      next directory =>
      rw [keeps.directories place directory]
      dsimp only
      split at follows
      · next idle => rw [if_pos idle, ih follows]
      next live =>
      rw [if_neg live]
      split at follows
      · next up => rw [if_pos up, ih follows]
      next other =>
      rw [if_neg other]
      split at follows
      · cases follows
      · next short => rw [if_neg short, ih follows]

/-- A path that leads somewhere still leads there. -/
theorem Keeps.locate (keeps : Keeps tree after) (located : tree.locate path = .ok place) :
    after.locate path = .ok place := by
  obtain ⟨whole, reached⟩ := follow_of_locate located
  have nonempty : path ≠ "" := by
    rintro rfl
    cases located
  rw [locate_eq tree whole nonempty] at located
  split at located
  · cases located
  next short =>
  have start : after.startOf path = tree.startOf path := by
    rw [startOf, startOf, keeps.working]
  rw [locate_eq after whole nonempty, if_neg short, start]
  exact keeps.follow located

theorem Keeps.proper (keeps : Keeps tree after) (proper : tree.Proper)
    (stands : ∀ place entry, after.at? place = some entry →
      tree.at? place.dropLast = some .directory) : after.Proper where
  parent place entry held := keeps.directories _ (stands place entry held)
  working := keeps.working ▸ keeps.directories _ proper.working

/-! ## One place -/

/-- Nothing is stored below a file. -/
theorem Proper.eq_of_isPrefix (proper : tree.Proper) (file : tree.at? place = some (.file bytes))
    {stored : Place × Entry} (member : stored ∈ tree.entries) (below : place <+: stored.1) :
    stored.1 = place := by
  obtain ⟨rest, whole⟩ := below
  by_cases none : rest = []
  · rw [← whole, none, List.append_nil]
  · have nonempty : stored.1 ≠ [] := by
      rw [← whole]
      exact fun empty => none (List.append_eq_nil_iff.1 empty).2
    obtain ⟨entry, held⟩ := exists_of_mem member nonempty
    rw [← whole] at held
    cases file.symm.trans (proper.above none held)

/-- Nothing is left at a place, and all else is left. -/
theorem at?_erase (nonempty : place ≠ []) :
    (tree.erase place).at? = Function.update tree.at? place none := by
  funext other
  by_cases root : other = []
  · subst root
    exact (Function.update_of_ne nonempty.symm _ _).symm
  rw [at?_of_ne_nil root, erase, List.find?_filter]
  by_cases same : other = place
  · subst same
    rw [Function.update_self, Option.map_eq_none_iff, List.find?_eq_none]
    simp
  · rw [Function.update_of_ne same, at?_of_ne_nil root]
    refine congrArg (Option.map Prod.snd) (List.find?_congr fun stored _ => ?_)
    rw [Bool.eq_iff_iff]
    simp only [decide_eq_true_eq, bne_iff_ne, beq_iff_eq, and_iff_right_iff_imp]
    exact fun here gone => same (here ▸ gone)

/-- What is at `source` is at `place`, and nothing at `source`. -/
def movedAt (held : Place → Option Entry) (source place : Place) : Place → Option Entry :=
  Function.update (Function.update held source none) place (held source)

/-- The tree with what is stored below a place stored below another one. -/
def relocate (tree : FileTree) (source place : Place) : FileTree :=
  { tree.erase place with
    entries := (tree.erase place).entries.map fun old => (moved source place old.1, old.2) }

/-- Nothing but a file itself is moved with it. -/
theorem Proper.moved_eq (proper : tree.Proper) (file : tree.at? source = some (.file bytes))
    {stored : Place × Entry} (member : stored ∈ tree.entries) :
    moved source place stored.1 = if stored.1 = source then place else stored.1 := by
  unfold moved
  split
  · next below =>
      have same := proper.eq_of_isPrefix file member (List.isPrefixOf_iff_prefix.1 below)
      rw [if_pos same, same, List.drop_length, List.append_nil]
  · next other =>
      refine (if_neg fun same => other ?_).symm
      rw [same]
      exact List.isPrefixOf_iff_prefix.2 List.prefix_rfl

/-- What is at a place afterwards was at the place from which it is moved there. -/
theorem at?_relocate_eq {other here : Place} (nonempty : other ≠ []) (nonemptyHere : here ≠ [])
    (same : ∀ stored ∈ tree.entries,
      stored.1 ≠ place ∧ moved source place stored.1 = other ↔ stored.1 = here) :
    (tree.relocate source place).at? other = tree.at? here := by
  rw [at?_of_ne_nil nonempty, at?_of_ne_nil nonemptyHere, relocate]
  dsimp only [erase]
  rw [List.find?_map, List.find?_filter, Option.map_map]
  refine congrArg (Option.map Prod.snd) (List.find?_congr fun stored member => ?_)
  rw [Bool.eq_iff_iff]
  simpa only [Function.comp_apply, decide_eq_true_eq, bne_iff_ne, beq_iff_eq] using
    same stored member

/-- A file is at another place. -/
theorem at?_relocate (proper : tree.Proper) (file : tree.at? source = some (.file bytes))
    (nonempty : place ≠ []) (apart : source ≠ place) :
    (tree.relocate source place).at? = movedAt tree.at? source place := by
  have some : source ≠ [] := by
    rintro rfl
    cases file
  funext other
  by_cases root : other = []
  · subst root
    rw [movedAt, Function.update_of_ne nonempty.symm, Function.update_of_ne some.symm]
    rfl
  by_cases here : other = place
  · subst here
    rw [movedAt, Function.update_self]
    refine at?_relocate_eq root some fun stored member => ?_
    rw [proper.moved_eq file member]
    grind
  rw [movedAt, Function.update_of_ne here]
  by_cases left : other = source
  · -- The file has gone, and nothing else has come to its place.
    subst left
    rw [Function.update_self, at?_of_ne_nil root, Option.map_eq_none_iff, List.find?_eq_none]
    intro stored member
    obtain ⟨old, kept, rfl⟩ := List.mem_map.1 member
    rw [proper.moved_eq file (List.mem_of_mem_filter kept), beq_iff_eq]
    grind
  · rw [Function.update_of_ne left]
    refine at?_relocate_eq root root fun stored member => ?_
    rw [proper.moved_eq file member]
    grind

/-! ## Operations -/

/-- Removing a file leaves nothing at its place, and all else. -/
theorem remove_file (found : tree.find path = .ok (place, .file bytes)) :
    tree.remove path = .ok (tree.erase place) := by
  rw [remove, found]
  rfl

/-- A file is renamed to a place where there is no directory. -/
theorem rename_file (found : tree.find path = .ok (source, .file bytes))
    (located : tree.locate target = .ok place) (parent : tree.at? place.dropLast = some .directory)
    (free : tree.at? place ≠ some .directory) (apart : source ≠ place)
    (named : endsInName path = true) (namedTarget : endsInName target = true) :
    tree.rename path target = .ok (tree.relocate source place) := by
  have other : (source == place) = false := beq_eq_false_iff_ne.2 apart
  have checked : tree.checkParent place = .ok () := by rw [checkParent, parent]
  rw [rename, found]
  simp only [located, checked, named, namedTarget, other, bind, Except.bind]
  cases held : tree.at? place with
  | none => rfl
  | some entry =>
      cases entry with
      | file => rfl
      | directory => exact absurd held free

/-- Directories stay where only places change that are none, if all that is new stands in one. -/
theorem keeps_of_same (changed : Place → Prop) (proper : tree.Proper)
    (same : ∀ other, ¬changed other → after.at? other = tree.at? other)
    (working : after.workingPlace = tree.workingPlace)
    (file : ∀ other, changed other → tree.at? other ≠ some .directory)
    (parent : ∀ other entry, changed other → after.at? other = some entry →
      tree.at? other.dropLast = some .directory) : Keeps tree after ∧ after.Proper := by
  have keeps : Keeps tree after := by
    refine ⟨fun other directory => ?_, working⟩
    rw [same other fun here => file other here directory, directory]
  refine ⟨keeps, keeps.proper proper fun other entry held => ?_⟩
  by_cases here : changed other
  · exact parent other entry here held
  · rw [same other here] at held
    exact proper.parent other entry held

/-- Directories stay when something else is removed. -/
theorem keeps_erase (proper : tree.Proper) (same : after.at? = Function.update tree.at? place none)
    (working : after.workingPlace = tree.workingPlace) (file : tree.at? place ≠ some .directory) :
    Keeps tree after ∧ after.Proper := by
  refine keeps_of_same (· = place) proper (fun other apart => ?_) working ?_ ?_
  · rw [same, Function.update_of_ne apart]
  · rintro other rfl
    exact file
  · rintro other entry rfl held
    rw [same, Function.update_self] at held
    cases held

/-- Directories stay when something else is moved to a place where there is none. -/
theorem keeps_movedAt (proper : tree.Proper) (same : after.at? = movedAt tree.at? source place)
    (working : after.workingPlace = tree.workingPlace)
    (file : tree.at? source ≠ some .directory) (free : tree.at? place ≠ some .directory)
    (parent : tree.at? place.dropLast = some .directory) :
    Keeps tree after ∧ after.Proper := by
  refine keeps_of_same (fun other => other = place ∨ other = source) proper
    (fun other apart => ?_) working ?_ ?_
  · rw [same, movedAt, Function.update_of_ne fun here => apart (.inl here),
      Function.update_of_ne fun here => apart (.inr here)]
  · rintro other (rfl | rfl)
    · exact free
    · exact file
  · intro other entry changed held
    by_cases here : other = place
    · exact here ▸ parent
    · rw [changed.resolve_left here, same, movedAt, Function.update_of_ne,
        Function.update_self] at held
      · cases held
      · exact changed.resolve_left here ▸ here

end FileTree
end DebugBridge
