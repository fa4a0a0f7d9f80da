import DebugBridge.File.Path
import DebugBridge.Proofs.Text.Blank
import Mathlib.Data.List.DropRight

/-!
# The directory and the name in a path

A path whose last part means something is a directory followed by that part.  Cutting it off leaves
a beginning of the path, and joining another name on gives a path with the same components but for
the last one, idle ones apart.
-/

namespace DebugBridge
namespace Path

open Text

variable {path name : String} {part : List Char} {front parts : List (List Char)}

/-- The parts of a path that mean something. -/
def live (parts : List (List Char)) : List (List Char) := parts.filter fun part => !isIdle part

@[simp]
theorem live_nil : live [] = [] := rfl

@[simp]
theorem live_append (parts more : List (List Char)) :
    live (parts ++ more) = live parts ++ live more :=
  List.filter_append ..

theorem live_cons_idle (idle : isIdle part = true) (parts : List (List Char)) :
    live (part :: parts) = live parts :=
  List.filter_cons_of_neg (by simp [idle])

/-! ## Parts put together -/

theorem joinSlash_cons (part : List Char) {rest : List (List Char)} (some : rest ≠ []) :
    joinSlash (part :: rest) = part ++ '/' :: joinSlash rest := by
  cases rest with
  | nil => exact absurd rfl some
  | cons next rest => rfl

theorem joinSlash_splitAtChar (text : List Char) : joinSlash (splitAtChar '/' text) = text := by
  induction text using pieces_induction '/' with
  | plain text plain => rw [splitAtChar_of_notMem plain, joinSlash]
  | cut piece rest plain ih =>
      rw [splitAtChar_append_of_notMem plain,
        joinSlash_cons _ (splitAtChar_ne_nil '/' rest), ih]

theorem splitAtChar_joinSlash (some : parts ≠ []) (plain : ∀ part ∈ parts, '/' ∉ part) :
    splitAtChar '/' (joinSlash parts) = parts := by
  induction parts with
  | nil => exact absurd rfl some
  | cons part rest ih =>
      obtain ⟨first, plain⟩ := List.forall_mem_cons.1 plain
      by_cases last : rest = []
      · rw [last, joinSlash, splitAtChar_of_notMem first]
      · rw [joinSlash_cons part last, splitAtChar_append, splitAtChar_of_notMem first,
          ih last plain, List.singleton_append]

/-- The components that put together parts have are those of the parts. -/
theorem live_splitAtChar_joinSlash (plain : ∀ part ∈ parts, '/' ∉ part) :
    live (splitAtChar '/' (joinSlash parts)) = live parts := by
  by_cases none : parts = []
  · subst none
    rfl
  · rw [splitAtChar_joinSlash none plain]

theorem joinSlash_isPrefix {more : List (List Char)} (starts : parts <+: more) :
    joinSlash parts <+: joinSlash more := by
  induction parts generalizing more with
  | nil => exact List.nil_prefix
  | cons part rest ih =>
      obtain ⟨tail, rfl⟩ := starts
      by_cases last : rest = []
      · subst last
        by_cases alone : tail = []
        · subst alone
          exact List.prefix_rfl
        · exact ⟨'/' :: joinSlash tail, by rw [joinSlash, List.cons_append, List.nil_append,
            joinSlash_cons part alone]⟩
      · have some : rest ++ tail ≠ [] := fun none => last (List.append_eq_nil_iff.1 none).1
        rw [List.cons_append, joinSlash_cons part last, joinSlash_cons part some,
          List.prefix_append_right_inj, List.prefix_cons_inj]
        exact ih (List.prefix_append rest tail)

/-! ## Without the last part -/

/-- The parts without idle ones at the end. -/
def liveFront (parts : List (List Char)) : List (List Char) := parts.rdropWhile isIdle

theorem live_liveFront (parts : List (List Char)) : live (liveFront parts) = live parts := by
  induction parts using List.reverseRecOn with
  | nil => rfl
  | append_singleton parts part ih =>
      rw [liveFront, List.rdropWhile_concat]
      split
      · next idle =>
          rw [live_append, live_cons_idle idle, live_nil, List.append_nil, ← ih, liveFront]
      · rfl

theorem liveFront_isPrefix (parts : List (List Char)) : liveFront parts <+: parts :=
  List.rdropWhile_prefix ..

/-- How a path begins. -/
theorem splitBody_cases (path : List Char) :
    (∃ body, path = '/' :: body ∧ splitBody path = (['/'], body)) ∨
      (∃ more, path = '.' :: '/' :: more ∧ splitBody path = (['.'], '/' :: more)) ∨
      path = ['.'] ∨ (path.head? ≠ some '/' ∧ splitBody path = ([], path)) := by
  unfold splitBody
  split
  · next body => exact .inl ⟨body, rfl, rfl⟩
  next other =>
  have relative : path.head? ≠ some '/' := by
    intro first
    obtain ⟨body, rfl⟩ := List.head?_eq_some_iff.1 first
    exact other body rfl
  unfold startsAtDot
  split
  · exact .inr (.inr (.inl rfl))
  · next more => exact .inr (.inl ⟨more, rfl, rfl⟩)
  · exact .inr (.inr (.inr ⟨relative, rfl⟩))

theorem bodyTail_of_live {body : List Char} (cut : splitAtChar '/' body = front ++ [part])
    (last : isIdle part = false) : bodyTail body = part :: front.reverse := by
  rw [bodyTail, cut, List.reverse_append, liveTail]
  exact List.dropWhile_cons_of_neg (by simp [last])

theorem isAbsolute_iff : isAbsolute path = true ↔ path.toList.head? = some '/' := by
  unfold isAbsolute
  split
  · next rest whole => simp [whole]
  · next other =>
      refine iff_of_false Bool.false_ne_true fun first => ?_
      obtain ⟨rest, whole⟩ := List.head?_eq_some_iff.1 first
      exact other rest whole

/-- A path is cut into a directory and its last part. -/
structure Leaves (path : String) (front : List (List Char)) (part : List Char)
    (directory : String) : Prop where
  /-- The directory is that of the path. -/
  parent : parent? path = some directory
  /-- The last part is its name, if it does not lead up. -/
  fileName (apart : part ≠ ['.', '.']) : fileName? path = some (String.ofList part)
  /-- The directory is a beginning of the path. -/
  begins : directory.toList <+: path.toList
  /-- It starts at the root if the path does. -/
  absolute : isAbsolute path = isAbsolute directory
  /-- Its components are those of the other parts. -/
  components : live (splitAtChar '/' directory.toList) = live front

/-- The path without the last part of its body. -/
def shortened (start : List Char) (front : List (List Char)) : String :=
  String.ofList (start ++ joinSlash (liveFront front))

/-- The last part of a path is that of its body, if it means something. -/
theorem leaves_of_splitBody {start body : List Char} {bodyFront : List (List Char)}
    (whole : path.toList = start ++ body) (begins : splitBody path.toList = (start, body))
    (cut : splitAtChar '/' body = bodyFront ++ [part]) (last : isIdle part = false)
    (rooted : path.toList.head? = some '/' → start.head? = some '/')
    (components : live (splitAtChar '/' (start ++ joinSlash (liveFront bodyFront))) = live front) :
    Leaves path front part (shortened start bodyFront) := by
  have starts : (shortened start bodyFront).toList <+: path.toList := by
    rw [shortened, String.toList_ofList, whole, List.prefix_append_right_inj,
      ← joinSlash_splitAtChar body, cut]
    exact joinSlash_isPrefix ((liveFront_isPrefix bodyFront).trans (List.prefix_append _ _))
  constructor
  · rw [parent?, begins]
    dsimp only
    rw [bodyTail_of_live cut last]
    rfl
  · intro apart
    rw [fileName?, begins]
    dsimp only
    rw [bodyTail_of_live cut last]
    exact if_neg (mt beq_iff_eq.1 apart)
  · exact starts
  · rw [Bool.eq_iff_iff, isAbsolute_iff, isAbsolute_iff]
    constructor
    · intro absolute
      rw [shortened, String.toList_ofList, List.head?_append, rooted absolute]
      rfl
    · intro absolute
      obtain ⟨rest, same⟩ := starts
      rw [← same, List.head?_append, absolute]
      rfl
  · rwa [shortened, String.toList_ofList]

theorem exists_front {first : List Char} {rest : List (List Char)}
    (cut : first :: rest = front ++ [part]) (some : rest ≠ []) :
    ∃ more, front = first :: more ∧ rest = more ++ [part] := by
  cases front with
  | nil => exact absurd (List.cons.inj cut).2 some
  | cons other more =>
      obtain ⟨rfl, same⟩ := List.cons.inj cut
      exact ⟨more, rfl, same⟩

/-- The components that are left, when the parts are without slashes. -/
theorem live_splitAtChar_liveFront (plain : ∀ part ∈ parts, '/' ∉ part) :
    live (splitAtChar '/' (joinSlash (liveFront parts))) = live parts := by
  rw [live_splitAtChar_joinSlash fun part member =>
    plain part ((liveFront_isPrefix parts).subset member), live_liveFront]

/-- A dot in front of a slash means nothing. -/
theorem live_splitAtChar_dot (starts : parts <+: [] :: front) (plain : ∀ part ∈ front, '/' ∉ part) :
    live (splitAtChar '/' ('.' :: joinSlash parts)) = live parts := by
  rcases List.prefix_cons_iff.1 starts with rfl | ⟨rest, rfl, within⟩
  · rfl
  · have plain (part : List Char) (member : part ∈ rest) : '/' ∉ part :=
      plain part (within.subset member)
    by_cases none : rest = []
    · subst none
      rfl
    · rw [joinSlash_cons [] none, List.nil_append, ← List.singleton_append, splitAtChar_append,
        live_append, live_splitAtChar_joinSlash plain]
      rfl

/-- A path whose last part means something is in a directory. -/
theorem exists_leaves (cut : splitAtChar '/' path.toList = front ++ [part])
    (last : isIdle part = false) : ∃ directory, Leaves path front part directory := by
  have plain (other : List Char) (member : other ∈ front) : '/' ∉ other :=
    notMem_of_mem_splitAtChar (cut ▸ List.mem_append_left _ member)
  rcases splitBody_cases path.toList with
    ⟨body, whole, begins⟩ | ⟨more, whole, begins⟩ | whole | ⟨relative, begins⟩
  · -- The path starts at the root.
    rw [whole, splitAtChar_cons_self] at cut
    obtain ⟨bodyFront, rfl, bodyCut⟩ := exists_front cut (splitAtChar_ne_nil _ _)
    refine ⟨_, leaves_of_splitBody whole begins bodyCut last (fun _ => rfl) ?_⟩
    rw [List.singleton_append, splitAtChar_cons_self, live_cons_idle rfl, live_cons_idle rfl]
    exact live_splitAtChar_liveFront (List.forall_mem_cons.1 plain).2
  · -- The path starts with a single dot.
    have dot : '.' :: '/' :: more = ['.'] ++ '/' :: more := rfl
    rw [whole, dot, splitAtChar_append_of_notMem (by decide)] at cut
    obtain ⟨rest, rfl, restCut⟩ := exists_front cut (splitAtChar_ne_nil _ _)
    have bodyCut : splitAtChar '/' ('/' :: more) = ([] :: rest) ++ [part] := by
      rw [splitAtChar_cons_self, restCut, List.cons_append]
    refine ⟨_, leaves_of_splitBody whole begins bodyCut last (by simp [whole]) ?_⟩
    rw [List.singleton_append, live_splitAtChar_dot (liveFront_isPrefix _)
      (List.forall_mem_cons.1 plain).2, live_liveFront, live_cons_idle rfl, live_cons_idle rfl]
  · rw [whole] at cut
    have alone : [] ++ [['.']] = front ++ [part] := cut
    obtain ⟨-, same⟩ := List.append_inj' alone rfl
    cases (List.cons.inj same).1
    cases last
  · have whole : path.toList = [] ++ path.toList := rfl
    exact ⟨_, leaves_of_splitBody whole begins cut last (absurd · relative)
      (live_splitAtChar_liveFront plain)⟩

/-! ## Another name -/

/-- A text that can be a name in a directory. -/
structure IsName (name : String) : Prop where
  /-- It is one component. -/
  plain : '/' ∉ name.toList
  /-- It means something. -/
  visible : isIdle name.toList = false
  /-- It does not lead up. -/
  apart : name.toList ≠ ['.', '.']

theorem IsName.not_isAbsolute (named : IsName name) : isAbsolute name = false := by
  rw [Bool.eq_false_iff, Ne, isAbsolute_iff]
  exact fun first => named.plain (List.mem_of_head? first)

/-- A name below a directory: the components of the directory, and then the name. -/
theorem splitAtChar_join (directory : String) (named : IsName name) :
    ∃ front, splitAtChar '/' (join directory name).toList = front ++ [name.toList] ∧
      live front = live (splitAtChar '/' directory.toList) := by
  have alone : splitAtChar '/' name.toList = [name.toList] := splitAtChar_of_notMem named.plain
  unfold join
  rw [named.not_isAbsolute, Bool.false_or]
  split
  · next empty =>
      rw [String.isEmpty_iff] at empty
      subst empty
      exact ⟨[], alone, rfl⟩
  split
  · next slash =>
      obtain ⟨before, ends⟩ := List.getLast?_eq_some_iff.1 (beq_iff_eq.1 slash)
      refine ⟨splitAtChar '/' before, ?_, ?_⟩
      · rw [String.toList_append, ends, List.append_assoc, List.singleton_append,
          splitAtChar_append, alone]
      · rw [ends, splitAtChar_append, live_append]
        exact (List.append_nil _).symm
  · refine ⟨splitAtChar '/' directory.toList, ?_, rfl⟩
    have slash : "/".toList = ['/'] := rfl
    rw [String.toList_append, String.toList_append, slash, List.append_assoc,
      List.singleton_append, splitAtChar_append, alone]

theorem isAbsolute_join {directory : String} (named : IsName name) :
    isAbsolute (join directory name) = isAbsolute directory := by
  have relative := named.not_isAbsolute
  unfold join
  rw [relative, Bool.false_or]
  split
  · next empty =>
      rw [String.isEmpty_iff] at empty
      subst empty
      exact relative
  next some =>
  have begins (rest : String) : isAbsolute (directory ++ rest) = isAbsolute directory := by
    obtain ⟨c, more, whole⟩ := List.exists_cons_of_ne_nil (l := directory.toList) (by
      intro none
      exact some (String.isEmpty_iff.2 (String.toList_eq_nil_iff.1 none)))
    rw [Bool.eq_iff_iff, isAbsolute_iff, isAbsolute_iff, String.toList_append, whole]
    rfl
  split
  · exact begins name
  · rw [String.append_assoc]
    exact begins _

/-- Another name in the same directory. -/
theorem Leaves.withFileName {directory : String} (leaves : Leaves path front part directory)
    (apart : part ≠ ['.', '.']) (name : String) :
    withFileName path name = join directory name := by
  rw [Path.withFileName, leaves.fileName apart, leaves.parent]

/-- What another name in the same directory is made of. -/
theorem mem_join {directory : String} {c : Char} (member : c ∈ (join directory name).toList) :
    c ∈ directory.toList ∨ c = '/' ∨ c ∈ name.toList := by
  unfold join at member
  split at member
  · exact .inr (.inr member)
  split at member
  · rw [String.toList_append, List.mem_append] at member
    exact member.imp_right .inr
  · rw [String.toList_append, String.toList_append, List.mem_append, List.mem_append,
      or_assoc] at member
    exact member.imp_right (.imp_left List.mem_singleton.1)

/-- A shorter name makes a shorter path. -/
theorem utf8ByteSize_join_le (directory : String) {longer : String} (named : IsName name)
    (namedLonger : IsName longer) (le : name.utf8ByteSize ≤ longer.utf8ByteSize) :
    (join directory name).utf8ByteSize ≤ (join directory longer).utf8ByteSize := by
  unfold join
  rw [named.not_isAbsolute, namedLonger.not_isAbsolute, Bool.false_or]
  split
  · exact le
  split
  · simpa only [String.utf8ByteSize_append, Nat.add_le_add_iff_left] using le
  · simpa only [String.utf8ByteSize_append, Nat.add_le_add_iff_left] using le

end Path
end DebugBridge
