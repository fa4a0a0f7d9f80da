import DebugBridge.Config.Load
import DebugBridge.Proofs.File.Directory
import DebugBridge.Proofs.Text.Utf8

/-!
# Settings from a text and from a file

Settings in a file are those in its text with their relative paths starting at the directory of the
file.  Making a path start elsewhere never empties it, so that what is wrong with the settings, and
what is wrong first, is the same with both.
-/

namespace DebugBridge
namespace DebugConfig

variable {config given : DebugConfig} {base path : String} {files : FileTree}
  {bytes : List UInt8} {text : List Char}

/-! ## Sound settings -/

/-- A text with a character that is not blank. -/
def IsFilled (text : String) : Prop := ∃ c ∈ text.toList, Text.isBlank c = false

theorem not_isBlankText_iff : (!Text.isBlankText path) = true ↔ IsFilled path := by
  rw [Bool.not_eq_true', Text.isBlankText, Text.allBlank, List.all_eq_false]
  simp only [Bool.not_eq_true, IsFilled]

/-- Settings that a session can work with. -/
structure Sound (config : DebugConfig) : Prop where
  /-- There is a script. -/
  program : config.program ≠ ""
  /-- There is an interpreter. -/
  runtime : config.runtime ≠ ""
  /-- The engine is one of the two that there are. -/
  version : config.engineVersion = 1 ∨ config.engineVersion = 2
  /-- There is a host. -/
  host : IsFilled config.host
  /-- There is a port to connect to. -/
  port (launch : config.request = .launch) (connect : config.launchTransport = .connect) :
    config.port ≠ 0
  /-- There is time to connect. -/
  timeout : config.connectTimeout ≠ 0
  /-- Properties have some depth. -/
  depth : config.maxDepth ≠ 0
  /-- Some children are sent. -/
  children : config.maxChildren ≠ 0
  /-- Breakpoints are on lines of files. -/
  breakpoints : ∀ entry ∈ config.breakpoints, 1 ≤ entry.line ∧ entry.file ≠ ""
  /-- Breakpoints on functions name them. -/
  functions : ∀ entry ∈ config.functionBreakpoints, IsFilled entry.name

theorem unlessHolds_eq_nil_iff {holds : Bool} {setting fault : String} :
    Violation.unlessHolds holds setting fault = [] ↔ holds = true := by
  cases holds with
  | false => exact iff_of_false (List.cons_ne_nil _ _) Bool.false_ne_true
  | true => exact iff_of_true rfl rfl

theorem not_isEmpty_iff : (!path.isEmpty) = true ↔ path ≠ "" := by
  rw [Bool.not_eq_true', Bool.eq_false_iff, Ne, String.isEmpty_iff]

/-- Nothing is wrong in a list if nothing is wrong with any element, wherever it is. -/
theorem flatMap_zipIdx_eq_nil_iff {α : Type} {sound : α → Prop} {faults : α → Nat → List Violation}
    (iff : ∀ entry index, faults entry index = [] ↔ sound entry) (entries : List α) :
    (entries.zipIdx.flatMap fun (entry, index) => faults entry index) = [] ↔
      ∀ entry ∈ entries, sound entry := by
  rw [List.flatMap_eq_nil_iff]
  constructor
  · intro none entry member
    obtain ⟨index, bound, rfl⟩ := List.getElem_of_mem member
    exact (iff _ index).1 (none (_, index) (List.mk_mem_zipIdx_iff_getElem?.2
      (List.getElem?_eq_getElem bound)))
  · rintro all ⟨entry, index⟩ member
    have here := List.mk_mem_zipIdx_iff_getElem?.1 member
    exact (iff entry index).2 (all entry (List.mem_of_getElem? here))

theorem lineEntry_violations_eq_nil_iff (entry : LineEntry) (index : Nat) :
    entry.violations index = [] ↔ 1 ≤ entry.line ∧ entry.file ≠ "" := by
  rw [LineEntry.violations, List.append_eq_nil_iff, unlessHolds_eq_nil_iff, unlessHolds_eq_nil_iff,
    not_isEmpty_iff, bne_iff_ne, Nat.one_le_iff_ne_zero]

theorem functionEntry_violations_eq_nil_iff (entry : FunctionEntry) (index : Nat) :
    entry.violations index = [] ↔ IsFilled entry.name := by
  rw [FunctionEntry.violations, unlessHolds_eq_nil_iff, not_isBlankText_iff]

theorem dials_iff : (!(config.dialsOut && config.port == 0)) = true ↔
    (config.request = .launch → config.launchTransport = .connect → config.port ≠ 0) := by
  rw [Bool.not_eq_true', Bool.eq_false_iff, Ne, dialsOut, Bool.and_eq_true, Bool.and_eq_true,
    beq_iff_eq, beq_iff_eq, beq_iff_eq, not_and, and_imp]

/-- Nothing is wrong with sound settings, and something with all others. -/
theorem violations_eq_nil_iff : config.violations = [] ↔ config.Sound := by
  simp only [violations, List.append_eq_nil_iff, unlessHolds_eq_nil_iff, not_isEmpty_iff,
    not_isBlankText_iff, dials_iff, bne_iff_ne, Bool.or_eq_true, beq_iff_eq,
    flatMap_zipIdx_eq_nil_iff lineEntry_violations_eq_nil_iff,
    flatMap_zipIdx_eq_nil_iff functionEntry_violations_eq_nil_iff]
  constructor
  · rintro ⟨⟨⟨⟨⟨⟨⟨⟨⟨program, runtime⟩, version⟩, host⟩, port⟩, timeout⟩, depth⟩, children⟩,
      breakpoints⟩, functions⟩
    exact ⟨program, runtime, version, host, port, timeout, depth, children, breakpoints, functions⟩
  · intro sound
    exact ⟨⟨⟨⟨⟨⟨⟨⟨⟨sound.program, sound.runtime⟩, sound.version⟩, sound.host⟩, sound.port⟩,
      sound.timeout⟩, sound.depth⟩, sound.children⟩, sound.breakpoints⟩, sound.functions⟩

theorem check_eq_ok_iff : config.check = .ok given ↔ config.Sound ∧ config = given := by
  rw [check, ← violations_eq_nil_iff]
  split
  · next none => rw [Except.ok.injEq, none, eq_self, true_and]
  · next some => rw [some]; exact iff_of_false nofun nofun

/-! ## Paths that start elsewhere -/

theorem join_ne_empty (base : String) (nonempty : path ≠ "") : Path.join base path ≠ "" := by
  unfold Path.join
  split
  · exact nonempty
  split
  · rw [Ne, String.append_eq_empty_iff]
    exact fun none => nonempty none.2
  · rw [Ne, String.append_eq_empty_iff]
    exact fun none => nonempty none.2

/-- A path does not become empty, nor an empty one anything else. -/
theorem isEmpty_anchored (base path : String) : (anchored base path).isEmpty = path.isEmpty := by
  unfold anchored
  split
  · next relative =>
      rw [Bool.and_eq_true, not_isEmpty_iff] at relative
      rw [Bool.eq_iff_iff, String.isEmpty_iff, String.isEmpty_iff]
      exact iff_of_false (join_ne_empty base relative.1) relative.1
  · rfl

/-- What is wrong in a list does not depend on what does not matter for any element. -/
theorem flatMap_zipIdx_map {α : Type} {faults : α → Nat → List Violation} {change : α → α}
    (same : ∀ entry index, faults (change entry) index = faults entry index) (entries : List α) :
    ((entries.map change).zipIdx.flatMap fun (entry, index) => faults entry index) =
      entries.zipIdx.flatMap fun (entry, index) => faults entry index := by
  rw [List.zipIdx_map, List.flatMap_map]
  exact List.flatMap_congr fun indexed _ => same indexed.1 indexed.2

/-- What is wrong with settings, and in which order, does not depend on where paths start. -/
theorem violations_anchor (config : DebugConfig) (base : String) :
    (config.anchor base).violations = config.violations := by
  have same (entry : LineEntry) (index : Nat) :
      LineEntry.violations { entry with file := anchored base entry.file } index =
        entry.violations index := by
    rw [LineEntry.violations, isEmpty_anchored, LineEntry.violations]
  rw [violations, violations]
  simp only [anchor, isEmpty_anchored, dialsOut]
  exact congrArg (_ ++ · ++ _) (flatMap_zipIdx_map same config.breakpoints)

theorem check_anchor (config : DebugConfig) (base : String) :
    (config.anchor base).check = config.check.map (·.anchor base) := by
  rw [check, violations_anchor, check]
  split <;> rfl

/-- The settings in a file are those in its text, with paths starting at the directory of the file,
and neither can be had without the other. -/
theorem exists_load_eq (read : files.read path = .ok bytes)
    (decoded : Text.utf8? bytes = .ok text) :
    ∃ base, Path.parent? path = some base ∧
      load files path = (ofText text).map (·.anchor base) := by
  obtain ⟨base, parent⟩ := FileTree.exists_parent read
  have names : files.names path = true := by
    obtain ⟨place, found⟩ := FileTree.exists_find_of_read read
    rw [FileTree.names, found]
    rfl
  refine ⟨base, parent, ?_⟩
  rw [load, ofText, names, read, parent]
  simp only [Except.mapError, decoded, bind, Except.bind]
  cases parse text with
  | error error => rfl
  | ok config =>
      dsimp only
      rw [check_anchor]
      rfl

/-! ## Both ways to have settings -/

/-- How a path becomes one that starts at a directory. -/
inductive Based (base : String) : String → String → Prop where
  /-- A relative path is put below the directory. -/
  | relative (path : String) (nonempty : path ≠ "") (relative : Path.isAbsolute path = false) :
    Based base path (Path.join base path)
  /-- An absolute one is left alone. -/
  | absolute (path : String) (absolute : Path.isAbsolute path = true) : Based base path path
  /-- So is an empty one. -/
  | empty : Based base "" ""

theorem based_anchored (base path : String) : Based base path (anchored base path) := by
  unfold anchored
  split
  · next relative =>
      rw [Bool.and_eq_true, not_isEmpty_iff, Bool.not_eq_true'] at relative
      exact .relative path relative.1 relative.2
  next other =>
  by_cases empty : path = ""
  · subst empty
    exact .empty
  · rw [Bool.and_eq_true, not_isEmpty_iff, not_and, Bool.not_eq_true', Bool.not_eq_false] at other
    exact .absolute path (other empty)

/-- Settings that differ only in where their paths start. -/
structure Rebased (base : String) (given placed : DebugConfig) : Prop where
  /-- The script starts at the directory. -/
  program : Based base given.program placed.program
  /-- So does the directory that the interpreter runs in, if there is one. -/
  cwd : Option.Rel (Based base) given.cwd placed.cwd
  /-- So do the files of breakpoints, which have all else as it was. -/
  breakpoints : List.Forall₂ (fun entry moved => Based base entry.file moved.file ∧
    moved = { entry with file := moved.file }) given.breakpoints placed.breakpoints
  /-- Nothing else is different. -/
  same : placed = { given with
    program := placed.program
    cwd := placed.cwd
    breakpoints := placed.breakpoints }

theorem rebased_anchor (config : DebugConfig) (base : String) :
    Rebased base config (config.anchor base) where
  program := based_anchored base config.program
  cwd := by
    rw [anchor]
    cases config.cwd with
    | none => exact .none
    | some directory => exact .some (based_anchored base directory)
  breakpoints := by
    rw [anchor, List.forall₂_map_right_iff, List.forall₂_same]
    exact fun entry _ => ⟨based_anchored base entry.file, rfl⟩
  same := rfl

/-- Two ways to have settings fail with one error, or give sound settings that differ only in where
their paths start. -/
inductive Agree (base : String) :
    Except ConfigError DebugConfig → Except ConfigError DebugConfig → Prop where
  /-- Both fail. -/
  | refused (error : ConfigError) : Agree base (.error error) (.error error)
  /-- Both succeed. -/
  | accepted (given placed : DebugConfig) (rebased : Rebased base given placed)
    (sound : given.Sound) (soundPlaced : placed.Sound) : Agree base (.ok given) (.ok placed)

theorem sound_of_ofText (accepted : ofText text = .ok config) : config.Sound := by
  obtain ⟨parsed, -, checked⟩ := exists_of_bind_ok accepted
  obtain ⟨sound, rfl⟩ := check_eq_ok_iff.1 checked
  exact sound

theorem Sound.anchor (sound : config.Sound) (base : String) : (config.anchor base).Sound := by
  rw [← violations_eq_nil_iff] at sound ⊢
  rw [violations_anchor, sound]

/-- Whatever text is accepted has sound settings, and where a file holds the text, the settings in
the file are the same ones with their paths starting at its directory, or fail in the same way. -/
theorem load_agrees :
    (∀ text config, ofText text = .ok config → config.Sound) ∧
      ∀ files path bytes text, FileTree.read files path = .ok bytes →
        Text.utf8? bytes = .ok text →
          ∃ base, Path.parent? path = some base ∧ Agree base (ofText text) (load files path) := by
  refine ⟨fun text config => sound_of_ofText, fun files path bytes text read decoded => ?_⟩
  obtain ⟨base, parent, same⟩ := exists_load_eq read decoded
  refine ⟨base, parent, ?_⟩
  rw [same]
  cases accepted : ofText text with
  | error error => exact .refused error
  | ok config =>
      have sound := sound_of_ofText accepted
      exact .accepted _ _ (rebased_anchor config base) sound (sound.anchor base)

/-- A project with a script and a breakpoint in another directory. -/
def projectText : String :=
  "program = 'main.ahk'\n[[breakpoints]]\nfile = '/lib/util.ahk'\nline = 4\n"

/-- The project's file. -/
def project : FileTree where
  entries := [(["work"], .directory), (["work", "debug.toml"], .file (Text.bytesOf projectText))]
  workingPlace := []

/-- The settings of a project are those in its text, with the script in its directory and the
breakpoint elsewhere. -/
theorem load_agrees_project :
    FileTree.read project "work/debug.toml" = .ok (Text.bytesOf projectText) ∧
      Text.utf8? (Text.bytesOf projectText) = .ok projectText.toList ∧
      (∃ config, ofText projectText.toList = .ok config ∧ config.Sound) ∧
      (∃ base, Path.parent? "work/debug.toml" = some base ∧
        Agree base (ofText projectText.toList) (load project "work/debug.toml")) ∧
      (load project "work/debug.toml").map (fun config =>
        (config.program, config.breakpoints.map LineEntry.file)) =
          .ok ("work/main.ahk", ["/lib/util.ahk"]) := by
  have read : FileTree.read project "work/debug.toml" = .ok (Text.bytesOf projectText) := rfl
  have decoded := Text.utf8?_bytesOf projectText
  have accepted : (ofText projectText.toList).toOption.isSome = true := by decide +kernel
  refine ⟨read, decoded, ?_, load_agrees.2 _ _ _ _ read decoded, by decide +kernel⟩
  cases given : ofText projectText.toList with
  | error error =>
      rw [given] at accepted
      cases accepted
  | ok config => exact ⟨config, rfl, load_agrees.1 _ _ given⟩

end DebugConfig
end DebugBridge
