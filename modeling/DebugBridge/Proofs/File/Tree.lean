import DebugBridge.File.Host
import Mathlib.Data.Finset.Card

/-!
# Files that can be read

Whatever is no directory can be read, and whatever can be read is an entry of the file tree.  So
fewer and fewer names of entries are left as more and more files are read.
-/

namespace DebugBridge

/-- What a failing computation goes through when it succeeds. -/
theorem exists_of_bind_ok {ε α β : Type} {first : Except ε α} {next : α → Except ε β} {value : β}
    (ok : (do next (← first)) = Except.ok value) :
    ∃ between, first = .ok between ∧ next between = .ok value := by
  cases first with
  | error error => cases ok
  | ok between => exact ⟨between, rfl, ok⟩

namespace FileTree

variable {tree : FileTree} {path : String} {place : Place} {entry : Entry} {bytes : List UInt8}

theorem at?_of_find (found : tree.find path = .ok (place, entry)) :
    tree.at? place = some entry := by
  obtain ⟨other, -, found⟩ := exists_of_bind_ok found
  split at found
  · next held =>
    cases found
    exact held
  · cases found

/-- A file is among the entries; the root directory alone is not. -/
theorem exists_mem_of_at? (held : tree.at? place = some (.file bytes)) :
    ∃ entry ∈ tree.entries, entry.1 = place := by
  unfold at? at held
  split at held
  · cases held
  · obtain ⟨entry, found, -⟩ := Option.map_eq_some_iff.1 held
    exact ⟨entry, List.mem_of_find?_eq_some found, beq_iff_eq.1 (List.find?_some found :)⟩

theorem exists_find_of_read (read : tree.read path = .ok bytes) :
    ∃ place, tree.find path = .ok (place, .file bytes) := by
  obtain ⟨⟨place, file | directory⟩, found, read⟩ := exists_of_bind_ok read
  · cases read
    exact ⟨place, found⟩
  · cases read

/-- What a path names is a directory or can be read. -/
theorem exists_read (names : tree.names path = true) (file : tree.isDirectory path = false) :
    ∃ bytes, tree.read path = .ok bytes := by
  unfold FileTree.names at names
  unfold FileTree.isDirectory at file
  unfold FileTree.read
  cases found : tree.find path with
  | error error =>
      rw [found] at names
      cases names
  | ok entry =>
      rw [found] at file
      obtain ⟨place, bytes | directory⟩ := entry
      · exact ⟨bytes, rfl⟩
      · cases file

theorem names_of_isFile (file : tree.isFile path = true) : tree.names path = true := by
  unfold FileTree.names
  unfold FileTree.isFile at file
  cases found : tree.find path with
  | error error =>
      rw [found] at file
      cases file
  | ok entry => rfl

end FileTree

namespace Host

variable {host : Host} {path : String}

/-- The names of all entries of the file tree. -/
def entryNames (host : Host) : Finset String :=
  (host.files.entries.map fun entry => "/" ++ "/".intercalate entry.1).toFinset

theorem card_entryNames_le (host : Host) : host.entryNames.card ≤ host.files.entries.length :=
  (List.toFinset_card_le _).trans (List.length_map _).le

/-- A file that can be read has the name of an entry. -/
theorem canonical_mem_entryNames {bytes : List UInt8} (read : host.files.read path = .ok bytes) :
    host.canonical path ∈ host.entryNames := by
  obtain ⟨place, found⟩ := FileTree.exists_find_of_read read
  obtain ⟨entry, member, rfl⟩ := FileTree.exists_mem_of_at? (FileTree.at?_of_find found)
  rw [canonical, found]
  exact List.mem_toFinset.2 (List.mem_map.2 ⟨entry, member, rfl⟩)

/-- How many entries of the file tree have none of some names. -/
def unseen (host : Host) (seen : Finset String) : ℕ := (host.entryNames \ seen).card

theorem unseen_le (host : Host) {seen more : Finset String} (subset : seen ⊆ more) :
    host.unseen more ≤ host.unseen seen :=
  Finset.card_le_card (Finset.sdiff_subset_sdiff le_rfl subset)

theorem unseen_insert_lt {seen : Finset String} {name : String} (entry : name ∈ host.entryNames)
    (unseen : name ∉ seen) : host.unseen (insert name seen) < host.unseen seen := by
  refine Finset.card_lt_card ⟨Finset.sdiff_subset_sdiff le_rfl (Finset.subset_insert _ _), ?_⟩
  intro subset
  have member := subset (Finset.mem_sdiff.2 ⟨entry, unseen⟩)
  exact (Finset.mem_sdiff.1 member).2 (Finset.mem_insert_self _ _)

theorem unseen_lt (host : Host) (seen : Finset String) :
    host.unseen seen < host.files.entries.length + 1 :=
  Nat.lt_succ_of_le ((Finset.card_le_card Finset.sdiff_subset).trans host.card_entryNames_le)

end Host
end DebugBridge
