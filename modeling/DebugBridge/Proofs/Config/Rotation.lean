import DebugBridge.Config.Log
import DebugBridge.Proofs.File.Change
import DebugBridge.Proofs.Text.Number

/-!
# Log files that make room

The log file and its backups stand side by side, each moving on to the place of the next one, the
last first.  So each finds its new place empty, gaps stay gaps, and the oldest backup alone is lost.
-/

namespace DebugBridge
namespace Log

open FileTree

/-! ## Moving on -/

section Places

variable {spots : Nat → Place} {held : Place → Option Entry} {count : Nat} {place : Place}

/-- What is at the first places, each thing having moved on by one, the last first. -/
def movedOn (spots : Nat → Place) (held : Place → Option Entry) : Nat → Place → Option Entry
  | 0 => movedAt held (spots 0) (spots 1)
  | count + 1 => movedOn spots (movedAt held (spots (count + 1)) (spots (count + 2))) count

theorem movedAt_of_ne {source : Place} (notSource : place ≠ source) {target : Place}
    (notTarget : place ≠ target) : movedAt held source target place = held place := by
  rw [movedAt, Function.update_of_ne notTarget, Function.update_of_ne notSource]

theorem movedAt_source {source target : Place} (apart : source ≠ target) :
    movedAt held source target source = none := by
  rw [movedAt, Function.update_of_ne apart, Function.update_self]

theorem movedAt_target (source target : Place) :
    movedAt held source target target = held source := by
  rw [movedAt, Function.update_self]

/-- Nothing has moved where there was nothing. -/
theorem movedAt_of_none {source target : Place} (nothing : held source = none)
    (vacant : held target = none) : movedAt held source target = held := by
  rw [movedAt, nothing, ← nothing, Function.update_eq_self, nothing, ← vacant,
    Function.update_eq_self]

/-- What is not at one of the places does not move. -/
theorem movedOn_of_ne (other : ∀ number ≤ count + 1, place ≠ spots number) :
    movedOn spots held count place = held place := by
  induction count generalizing held with
  | zero => exact movedAt_of_ne (other 0 (by omega)) (other 1 (by omega))
  | succ count ih =>
      rw [movedOn, ih fun number le => other number (by omega)]
      exact movedAt_of_ne (other _ (by omega)) (other _ (by omega))

variable (distinct : Function.Injective spots)
include distinct

theorem movedOn_first : movedOn spots held count (spots 0) = none := by
  induction count generalizing held with
  | zero => exact movedAt_source (distinct.ne (by decide))
  | succ count ih => exact ih

/-- What was at one of the places is at the next one. -/
theorem movedOn_next {number : Nat} (le : number ≤ count) :
    movedOn spots held count (spots (number + 1)) = held (spots number) := by
  induction count generalizing held number with
  | zero =>
      obtain rfl := Nat.le_zero.1 le
      exact movedAt_target _ _
  | succ count ih =>
      rw [movedOn]
      rcases Nat.le_succ_iff.1 le with earlier | rfl
      · rw [ih earlier]
        exact movedAt_of_ne (distinct.ne (by omega)) (distinct.ne (by omega))
      · -- The last one has moved first, and none of the later moves comes there.
        rw [movedOn_of_ne fun number le => distinct.ne (by omega)]
        exact movedAt_target _ _

end Places

/-! ## The names of backups -/

/-- The log file, with number zero, and its backups. -/
def numbered (path : String) : Nat → String
  | 0 => path
  | number + 1 => backup path (number + 1)

/-- The name of the log file, or of a backup of it. -/
def numberedName (name : String) : Nat → String
  | 0 => name
  | number + 1 => name ++ "." ++ toString (number + 1)

/-- Where they are. -/
def spot (home : Place) (name : String) (number : Nat) : Place := home ++ [numberedName name number]

theorem toString_injective : Function.Injective (toString : Nat → String) := by
  intro number other same
  have digits := Text.digitsValue_toString number
  rw [same, Text.digitsValue_toString] at digits
  exact digits.symm

theorem length_numberedName (name : String) (number : Nat) :
    (numberedName name (number + 1)).length = name.length + 1 + (toString (number + 1)).length := by
  rw [numberedName, String.length_append, String.length_append]
  rfl

theorem numberedName_injective (name : String) : Function.Injective (numberedName name) := by
  intro number other same
  have lengths := congrArg String.length same
  cases number with
  | zero =>
      cases other with
      | zero => rfl
      | succ other =>
          rw [length_numberedName, numberedName] at lengths
          omega
  | succ number =>
      cases other with
      | zero =>
          rw [length_numberedName, numberedName] at lengths
          omega
      | succ other =>
          rw [numberedName, numberedName, String.append_right_inj] at same
          exact toString_injective same

theorem spot_injective (home : Place) (name : String) : Function.Injective (spot home name) := by
  intro number other same
  exact numberedName_injective name (List.singleton_inj.1 (List.append_cancel_left same))

theorem mem_numberedName {name : String} {number : Nat} {c : Char}
    (member : c ∈ (numberedName name (number + 1)).toList) :
    c ∈ name.toList ∨ c = '.' ∨ Text.isDigit c = true := by
  rw [numberedName, String.toList_append, String.toList_append, List.mem_append, List.mem_append,
    or_assoc] at member
  exact member.imp_right (.imp List.mem_singleton.1 Text.isDigit_of_mem_toString)

/-- A backup of a file has a name. -/
theorem isName_numberedName {name : String} (named : Path.IsName name) (number : Nat) :
    Path.IsName (numberedName name (number + 1)) := by
  have long : 2 < (numberedName name (number + 1)).toList.length := by
    have nonempty : name.toList ≠ [] := by
      intro none
      have visible := named.visible
      rw [none] at visible
      cases visible
    have first := List.length_pos_iff.2 nonempty
    have last := List.length_pos_iff.2 (Text.toList_toString_ne_nil (number + 1))
    rw [String.length_toList] at first last ⊢
    rw [length_numberedName]
    omega
  constructor
  · intro slash
    rcases mem_numberedName slash with inName | dot | digit
    · exact named.plain inName
    · cases dot
    · cases digit
  · rw [Path.isIdle, Bool.or_eq_false_iff, List.isEmpty_eq_false_iff, beq_eq_false_iff_ne]
    constructor <;> intro short <;> rw [short] at long <;> exact absurd long (by decide)
  · intro short
    rw [short] at long
    exact absurd long (by decide)

theorem toString_eq_append {number : Nat} (large : 10 ≤ number) :
    toString number = toString (number / 10) ++ toString (number % 10) := by
  have digit := Nat.mod_lt number (show 0 < 10 by decide)
  rw [Nat.toString_eq_ofList_toDigits, Nat.toString_eq_ofList_toDigits,
    Nat.toString_eq_ofList_toDigits, Nat.toDigits_of_base_le (by decide) large,
    Nat.toDigits_of_lt_base digit, String.ofList_append]

theorem utf8ByteSize_digit : ∀ number < 10, (toString number).utf8ByteSize = 1 := by
  decide

theorem utf8ByteSize_toString {number : Nat} (large : 10 ≤ number) :
    (toString number).utf8ByteSize = (toString (number / 10)).utf8ByteSize + 1 := by
  rw [toString_eq_append large, String.utf8ByteSize_append,
    utf8ByteSize_digit _ (Nat.mod_lt number (by decide))]

/-- A larger number is not shorter. -/
theorem utf8ByteSize_toString_le {number more : Nat} (le : number ≤ more) :
    (toString number).utf8ByteSize ≤ (toString more).utf8ByteSize := by
  induction more using Nat.strongRecOn generalizing number with
  | ind more ih =>
      by_cases small : number < 10
      · rw [utf8ByteSize_digit number small, Nat.one_le_iff_ne_zero, Ne,
          String.utf8ByteSize_eq_zero_iff]
        intro none
        exact Text.toList_toString_ne_nil more (by rw [none]; rfl)
      · have large : 10 ≤ number := Nat.le_of_not_lt small
        have shorter := ih (more / 10) (by omega) (Nat.div_le_div_right le)
        rw [utf8ByteSize_toString large, utf8ByteSize_toString (large.trans le)]
        omega

theorem utf8ByteSize_numberedName_le (name : String) {number more : Nat} (le : number ≤ more) :
    (numberedName name (number + 1)).utf8ByteSize ≤
      (numberedName name (more + 1)).utf8ByteSize := by
  simpa only [numberedName, String.utf8ByteSize_append, Nat.add_le_add_iff_left] using
    utf8ByteSize_toString_le (Nat.succ_le_succ le)

/-! ## Moving files on -/

variable {files after : FileTree} {path name : String} {home : Place} {bytes : List UInt8}
  {count : Nat}

/-- The log file and its backups are files beside each other in one directory. -/
structure Stands (files : FileTree) (path : String) (home : Place) (name : String)
    (bytes : List UInt8) (last : Nat) : Prop where
  /-- The tree is as trees are. -/
  proper : files.Proper
  /-- They are in a directory. -/
  directory : files.at? home = some .directory
  /-- Their paths lead to their places. -/
  located (number : Nat) (le : number ≤ last) :
    files.locate (numbered path number) = .ok (spot home name number)
  /-- Their paths end in names. -/
  ends (number : Nat) : endsInName (numbered path number) = true
  /-- None is a directory. -/
  regular (number : Nat) (le : number ≤ last) :
    files.at? (spot home name number) ≠ some .directory
  /-- There is a log file. -/
  log : files.at? (spot home name 0) = some (.file bytes)

/-- They can move on: the place after the last one is empty. -/
structure Ready (files : FileTree) (path : String) (home : Place) (name : String)
    (bytes : List UInt8) (count : Nat) : Prop
    extends Stands files path home name bytes (count + 1) where
  /-- The last place is empty. -/
  vacant : files.at? (spot home name (count + 1)) = none

theorem dropLast_spot (home : Place) (name : String) (number : Nat) :
    (spot home name number).dropLast = home :=
  List.dropLast_concat

/-- One file moves on to the empty place after it. -/
theorem Ready.rename {held : List UInt8} (ready : Ready files path home name bytes count)
    (file : files.at? (spot home name count) = some (.file held)) :
    ∃ after, files.rename (numbered path count) (numbered path (count + 1)) = .ok after ∧
      after.at? = movedAt files.at? (spot home name count) (spot home name (count + 1)) ∧
        Keeps files after ∧ after.Proper := by
  have apart : spot home name count ≠ spot home name (count + 1) :=
    (spot_injective home name).ne (by omega)
  have free := ready.regular (count + 1) (Nat.le_refl _)
  have parent : files.at? (spot home name (count + 1)).dropLast = some .directory := by
    rw [dropLast_spot, ready.directory]
  have found : files.find (numbered path count) = .ok (spot home name count, .file held) := by
    rw [find_eq (ready.located count (by omega)), file]
  have same := at?_relocate ready.proper file (List.concat_ne_nil _ _) apart
  refine ⟨_, rename_file found (ready.located _ (Nat.le_refl _)) parent free apart
    (ready.ends count) (ready.ends (count + 1)), same, ?_⟩
  exact keeps_movedAt ready.proper same rfl (by rw [file]; exact nofun) free parent

/-- When the last file has moved on, the others can. -/
theorem Ready.next (ready : Ready files path home name bytes (count + 1))
    (same : after.at? = movedAt files.at? (spot home name (count + 1)) (spot home name (count + 2)))
    (keeps : Keeps files after) (proper : after.Proper) :
    Ready after path home name bytes count where
  proper := proper
  directory := keeps.directories _ ready.directory
  located number le := keeps.locate (ready.located number (by omega))
  ends := ready.ends
  regular number le := by
    rcases Nat.le_succ_iff.1 le with earlier | rfl
    · rw [same, movedAt_of_ne ((spot_injective home name).ne (by omega))
        ((spot_injective home name).ne (by omega))]
      exact ready.regular number (by omega)
    · rw [same, movedAt_source ((spot_injective home name).ne (by omega))]
      exact nofun
  log := by
    rw [same, movedAt_of_ne ((spot_injective home name).ne (by omega))
      ((spot_injective home name).ne (by omega)), ready.log]
  vacant := by rw [same, movedAt_source ((spot_injective home name).ne (by omega))]

/-- A backup that is there moves on, and where there is none, nothing happens. -/
theorem Ready.step (ready : Ready files path home name bytes (count + 1)) :
    ∃ after,
      (if files.names (backup path (count + 1)) then
        files.rename (backup path (count + 1)) (backup path (count + 2))
      else .ok files) = .ok after ∧
      after.at? = movedAt files.at? (spot home name (count + 1)) (spot home name (count + 2)) ∧
        Keeps files after ∧ after.Proper := by
  have found := find_eq (ready.located (count + 1) (by omega))
  cases held : files.at? (spot home name (count + 1)) with
  | none =>
      rw [held] at found
      refine ⟨files, if_neg ?_, (movedAt_of_none held ready.vacant).symm, .refl files, ready.proper⟩
      rw [FileTree.names, ← numbered, found]
      exact Bool.false_ne_true
  | some entry =>
      cases entry with
      | directory => exact absurd held (ready.regular _ (by omega))
      | file content =>
          rw [held] at found
          obtain ⟨after, renamed, result⟩ := ready.rename held
          refine ⟨after, (if_pos ?_).trans renamed, result⟩
          rw [FileTree.names, ← numbered, found]
          rfl

/-- All files move on. -/
theorem Ready.shift (ready : Ready files path home name bytes count) :
    ∃ after, shift files path count = (after, none) ∧
      after.at? = movedOn (spot home name) files.at? count ∧ Keeps files after := by
  induction count generalizing files with
  | zero =>
      obtain ⟨after, renamed, same, keeps, -⟩ := ready.rename ready.log
      refine ⟨after, ?_, same, keeps⟩
      rw [numbered, numbered] at renamed
      rw [Log.shift, renamed]
      rfl
  | succ count ih =>
      obtain ⟨between, moved, same, keeps, proper⟩ := ready.step
      obtain ⟨after, shifted, all, keepsAll⟩ := ih (ready.next same keeps proper)
      refine ⟨after, ?_, by rw [all, same, movedOn], keeps.trans keepsAll⟩
      rw [Log.shift, moved]
      exact shifted

/-! ## The oldest backup -/

theorem numbered_succ (houses : files.Houses path home name) (number : Nat) :
    numbered path (number + 1) = Path.withFileName path (numberedName name (number + 1)) := by
  rw [numbered, backup, houses.fileName]
  rfl

theorem endsInName_numbered (houses : files.Houses path home name) (number : Nat) :
    endsInName (numbered path number) = true := by
  cases number with
  | zero => exact houses.ends
  | succ number =>
      rw [numbered_succ houses]
      exact houses.endsSibling _ (isName_numberedName houses.named number)

/-- If the path of the last backup is not too long for the system, all of them stand beside the log
file. -/
theorem locate_numbered (houses : files.Houses path home name)
    (fits : ∀ error, files.find (backup path (count + 1)) = .error error → error = .notFound)
    {number : Nat} (le : number ≤ count + 1) :
    files.locate (numbered path number) = .ok (spot home name number) := by
  have located (number : Nat) :
      files.locate (numbered path (number + 1)) =
        if pathLimit < (numbered path (number + 1)).utf8ByteSize then .error .tooLong
        else if nameLimit < (numberedName name (number + 1)).utf8ByteSize then .error .tooLong
        else .ok (spot home name (number + 1)) := by
    rw [numbered_succ houses]
    refine houses.sibling _ (isName_numberedName houses.named number) fun zero => ?_
    rcases mem_numberedName zero with inName | dot | digit
    · exact houses.whole inName
    · cases dot
    · cases digit
  have last : ¬files.locate (numbered path (count + 1)) = .error .tooLong := by
    intro long
    have failed : files.find (backup path (count + 1)) = .error .tooLong := by
      rw [← numbered, FileTree.find, long]
      rfl
    cases fits _ failed
  cases number with
  | zero => exact houses.located
  | succ number =>
      have shorterName := utf8ByteSize_numberedName_le name (Nat.le_of_succ_le_succ le)
      have shorterPath := houses.shorter _ _ (isName_numberedName houses.named number)
        (isName_numberedName houses.named count) shorterName
      rw [← numbered_succ houses, ← numbered_succ houses] at shorterPath
      rw [located] at last
      split at last
      · exact absurd rfl last
      split at last
      · exact absurd rfl last
      rw [located, if_neg (by omega), if_neg (by omega)]

/-- Afterwards there is nothing, and all else is left. -/
theorem exists_removeIfThere {target : String} {place : Place} (proper : files.Proper)
    (located : files.locate target = .ok place) (file : files.at? place ≠ some .directory) :
    ∃ after, removeIfThere files target = .ok after ∧
      after.at? = Function.update files.at? place none ∧ Keeps files after ∧ after.Proper := by
  have found := find_eq located
  cases held : files.at? place with
  | none =>
      have same : files.at? = Function.update files.at? place none := by
        rw [← held, Function.update_eq_self]
      rw [held] at found
      refine ⟨files, ?_, same, keeps_erase proper same rfl file⟩
      rw [removeIfThere, FileTree.remove, found]
      rfl
  | some entry =>
      cases entry with
      | directory => exact absurd held file
      | file bytes =>
          rw [held] at found
          have nonempty : place ≠ [] := by
            rintro rfl
            cases held
          have same : (files.erase place).at? = Function.update files.at? place none :=
            at?_erase nonempty
          refine ⟨_, ?_, same, keeps_erase proper same rfl file⟩
          rw [removeIfThere, remove_file found]

/-! ## Rotation -/

/-- What a path names, wherever that is. -/
def content (files : FileTree) (path : String) : Except FileError Entry :=
  (files.find path).map Prod.snd

theorem content_eq {target : String} {place : Place} (located : files.locate target = .ok place) :
    content files target = (files.at? place).elim (.error .notFound) .ok := by
  rw [content, find_eq located]
  cases files.at? place <;> rfl

/-- Each file has moved on by one, the last backup being lost. -/
structure Rotated (files after : FileTree) (path : String) (maxFiles : Nat) : Prop where
  /-- There is no log file any more. -/
  log : after.find path = .error .notFound
  /-- It is the first backup. -/
  first : content after (backup path 1) = content files path
  /-- What a backup was the next one is, and where there was none, there is none next. -/
  next (number : Nat) (positive : 1 ≤ number) (lt : number < maxFiles) :
    content after (backup path (number + 1)) = content files (backup path number)
  /-- Everything else is where it was. -/
  others (place : Place) (log : files.locate path ≠ .ok place)
    (backups : ∀ number, 1 ≤ number → number ≤ maxFiles →
      files.locate (backup path number) ≠ .ok place) :
    after.at? place = files.at? place
  /-- Paths lead to the same places. -/
  paths (target : String) (place : Place) (located : files.locate target = .ok place) :
    after.locate target = .ok place

/-- The log file and its backups stand beside each other, if the last one has no name that is too
long. -/
theorem exists_stands (proper : files.Proper) (found : files.read path = .ok bytes)
    (regular : ∀ number, 1 ≤ number → number ≤ count + 1 →
      files.isDirectory (backup path number) = false)
    (fits : ∀ error, files.find (backup path (count + 1)) = .error error → error = .notFound) :
    ∃ home name, Stands files path home name bytes (count + 1) := by
  obtain ⟨place, found⟩ := exists_find_of_read found
  obtain ⟨home, name, rfl, houses⟩ := exists_houses proper found
  have log : files.at? (spot home name 0) = some (.file bytes) := at?_of_find found
  refine ⟨home, name, proper, houses.directory, fun number le => locate_numbered houses fits le,
    endsInName_numbered houses, fun number le directory => ?_, log⟩
  cases number with
  | zero => cases log.symm.trans directory
  | succ number =>
      have other := regular (number + 1) (by omega) le
      rw [← numbered, FileTree.isDirectory, find_eq (locate_numbered houses fits le),
        directory] at other
      cases other

/-- Without the last one, the others can move on. -/
theorem Stands.ready (stands : Stands files path home name bytes (count + 1))
    (same : after.at? = Function.update files.at? (spot home name (count + 1)) none)
    (keeps : Keeps files after) (proper : after.Proper) :
    Ready after path home name bytes count where
  proper := proper
  directory := keeps.directories _ stands.directory
  located number le := keeps.locate (stands.located number le)
  ends := stands.ends
  regular number le := by
    rcases Nat.le_succ_iff.1 le with earlier | rfl
    · rw [same, Function.update_of_ne ((spot_injective home name).ne (by omega))]
      exact stands.regular number le
    · rw [same, Function.update_self]
      exact nofun
  log := by rw [same, Function.update_of_ne ((spot_injective home name).ne (by omega)), stands.log]
  vacant := by rw [same, Function.update_self]

/-- When the last one has gone and the others have moved on, all is as it should be. -/
theorem Stands.rotated (stands : Stands files path home name bytes (count + 1))
    (same : after.at? = movedOn (spot home name)
      (Function.update files.at? (spot home name (count + 1)) none) count)
    (keeps : Keeps files after) : Rotated files after path (count + 1) := by
  have distinct := spot_injective home name
  have moved (number : Nat) (le : number ≤ count) :
      content after (numbered path (number + 1)) = content files (numbered path number) := by
    rw [content_eq (keeps.locate (stands.located (number + 1) (by omega))),
      content_eq (stands.located number (by omega)), same, movedOn_next distinct le,
      Function.update_of_ne (distinct.ne (by omega))]
  constructor
  · have located := keeps.locate (stands.located 0 (Nat.zero_le _))
    rw [numbered] at located
    rw [find_eq located, same, movedOn_first distinct]
  · exact moved 0 (Nat.zero_le _)
  · intro number positive lt
    obtain ⟨number, rfl⟩ := Nat.exists_eq_succ_of_ne_zero (Nat.ne_of_gt positive)
    exact moved (number + 1) (by omega)
  · intro place notLog notBackups
    have other (number : Nat) (le : number ≤ count + 1) : place ≠ spot home name number := by
      rintro rfl
      have located := stands.located number le
      cases number with
      | zero => exact notLog located
      | succ number => exact notBackups (number + 1) (by omega) le located
    rw [same, movedOn_of_ne other, Function.update_of_ne (other _ (Nat.le_refl _))]
  · exact fun target place located => keeps.locate located

variable {maxSize : Nat}

theorem sizeOf_eq (found : files.read path = .ok bytes) : sizeOf files path = .ok bytes.length := by
  obtain ⟨place, found⟩ := exists_find_of_read found
  rw [sizeOf, found]
  rfl

/-- A log file that is large enough moves on, if the last backup has no name that is too long. -/
theorem rotated_of_fits (proper : files.Proper) (found : files.read path = .ok bytes)
    (large : maxSize ≤ bytes.length)
    (regular : ∀ number, 1 ≤ number → number ≤ count + 1 →
      files.isDirectory (backup path number) = false)
    (fits : ∀ error, files.find (backup path (count + 1)) = .error error → error = .notFound) :
    ∃ after, rotate files path maxSize (count + 1) = (after, none) ∧
      Rotated files after path (count + 1) := by
  obtain ⟨home, name, stands⟩ := exists_stands proper found regular fits
  obtain ⟨cleared, removed, same, keeps, properCleared⟩ :=
    exists_removeIfThere proper (stands.located _ (Nat.le_refl _))
      (stands.regular _ (Nat.le_refl _))
  obtain ⟨after, shifted, all, keepsAll⟩ := (stands.ready same keeps properCleared).shift
  refine ⟨after, ?_, stands.rotated (same ▸ all) (keeps.trans keepsAll)⟩
  rw [numbered] at removed
  rw [rotate, sizeOf_eq found]
  dsimp only
  rw [if_neg (Nat.not_lt.2 large), removed]
  exact shifted

/-- Rotation loses the oldest backup only.  Nothing happens to a log file that is missing or small;
a large one becomes the first backup, and each backup the next one, gaps staying gaps.  It fails
only where the system refuses the path of the last backup. -/
theorem rotate_loses_oldest (files : FileTree) (path : String) (maxSize maxFiles : Nat)
    (proper : files.Proper) (positive : 1 ≤ maxFiles)
    (regular : ∀ number, 1 ≤ number → number ≤ maxFiles →
      files.isDirectory (backup path number) = false) :
    (files.find path = .error .notFound → rotate files path maxSize maxFiles = (files, none)) ∧
      ∀ bytes, files.read path = .ok bytes →
        (bytes.length < maxSize → rotate files path maxSize maxFiles = (files, none)) ∧
        (maxSize ≤ bytes.length →
          ((rotate files path maxSize maxFiles).2 = none ↔
            ∀ error, files.find (backup path maxFiles) = .error error → error = .notFound) ∧
          ((rotate files path maxSize maxFiles).2 = none →
            Rotated files (rotate files path maxSize maxFiles).1 path maxFiles)) := by
  obtain ⟨count, rfl⟩ := Nat.exists_eq_succ_of_ne_zero (Nat.ne_of_gt positive)
  refine ⟨fun missing => ?_, fun bytes found => ⟨fun small => ?_, fun large => ?_⟩⟩
  · have size : sizeOf files path = .error .notFound := by
      rw [sizeOf, missing]
      rfl
    rw [rotate, size]
  · rw [rotate, sizeOf_eq found]
    exact if_pos small
  have fits (done : (rotate files path maxSize (count + 1)).2 = none) (error : FileError)
      (failed : files.find (backup path (count + 1)) = .error error) : error = .notFound := by
    by_contra other
    have refused : removeIfThere files (backup path (count + 1)) = .error error := by
      rw [removeIfThere, FileTree.remove, failed]
      cases error with
      | notFound => exact absurd rfl other
      | _ => rfl
    rw [rotate, sizeOf_eq found] at done
    dsimp only at done
    rw [if_neg (Nat.not_lt.2 large), refused] at done
    cases done
  constructor
  · refine ⟨fits, fun fits => ?_⟩
    obtain ⟨after, rotated, -⟩ := rotated_of_fits proper found large regular fits
    rw [Nat.succ_eq_add_one, rotated]
  · intro done
    obtain ⟨after, rotated, moved⟩ := rotated_of_fits proper found large regular (fits done)
    rw [Nat.succ_eq_add_one, rotated]
    exact moved

/-- A log file of two bytes that has lost its first backup. -/
def gapped : FileTree where
  entries := [(["log"], .file [7, 7]), (["log.2"], .file [2]), (["log.3"], .file [3])]
  workingPlace := []

/-- The second backup becomes the third, and there is no second one then. -/
theorem rotate_loses_oldest_gapped :
    gapped.Proper ∧ 1 ≤ 3 ∧
      (∀ number, 1 ≤ number → number ≤ 3 → gapped.isDirectory (backup "log" number) = false) ∧
      (rotate gapped "log" 2 3).2 = none ∧ Rotated gapped (rotate gapped "log" 2 3).1 "log" 3 := by
  have proper : gapped.Proper := by decide
  have regular : ∀ number, 1 ≤ number → number ≤ 3 →
      gapped.isDirectory (backup "log" number) = false := by
    intro number positive le
    obtain rfl | rfl | rfl : number = 1 ∨ number = 2 ∨ number = 3 := by omega
    all_goals rfl
  have done : (rotate gapped "log" 2 3).2 = none := rfl
  have rotates := (rotate_loses_oldest gapped "log" 2 3 proper (by decide) regular).2 [7, 7] rfl
  exact ⟨proper, by decide, regular, done, (rotates.2 (by decide)).2 done⟩

end Log
end DebugBridge
