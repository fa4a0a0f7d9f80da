import DebugBridge.Proofs.Text.Blank
import DebugBridge.Proofs.Text.Percent
import DebugBridge.Protocol.Uri
import Mathlib.Data.List.Forall2

/-!
# Paths in URIs

A path that is written as a URI and read again is the path with slashes, except for what stands at
its beginning: a path gets a slash in front if it has none, and loses it before a drive letter.  So
just those paths come back as the same file that begin with a drive letter, or with a slash that
stands before none.  They come back letter by letter but for backslashes, and their URIs tell them
apart.
-/

namespace DebugBridge

namespace Path

/-- The path with slashes, without the first slash if it begins with one. -/
def body (path : String) : List Char :=
  match (withSlashes path).toList with
  | '/' :: rest => rest
  | text => text

/-- Whether a path begins with a drive letter, or with a slash that stands before none. -/
def isPlaced (path : String) : Bool :=
  match (withSlashes path).toList with
  | '/' :: rest => !hasDrive rest
  | text => hasDrive text

/-- A path begins with a slash or it does not. -/
theorem withSlashes_cases (path : String) :
    (withSlashes path).toList = '/' :: body path ∧ isPlaced path = !hasDrive (body path) ∨
      (withSlashes path).toList = body path ∧ (body path).head? ≠ some '/' ∧
        isPlaced path = hasDrive (body path) := by
  unfold body isPlaced
  generalize (withSlashes path).toList = text
  split
  · exact .inl ⟨rfl, rfl⟩
  · next other =>
      refine .inr ⟨rfl, fun slash => ?_, rfl⟩
      obtain ⟨rest, rfl⟩ := List.head?_eq_some_iff.1 slash
      exact other rest rfl

/-- There are no backslashes left. -/
theorem not_mem_body (path : String) : '\\' ∉ body path := by
  have clean : '\\' ∉ (withSlashes path).toList := by
    rw [withSlashes, String.toList_ofList]
    intro member
    obtain ⟨c, -, same⟩ := List.mem_map.1 member
    split at same
    · cases same
    · next other => exact other (beq_iff_eq.2 same)
  rcases withSlashes_cases path with ⟨text, -⟩ | ⟨text, -⟩
  · exact fun member => clean (text ▸ List.mem_cons_of_mem _ member)
  · exact text ▸ clean

theorem withSlashes_ofList {text : List Char} (clean : '\\' ∉ text) :
    withSlashes (String.ofList text) = String.ofList text := by
  rw [withSlashes, String.toList_ofList]
  congr 1
  refine (List.map_congr_left fun c member => ?_).trans (List.map_id text)
  refine if_neg fun same => clean ?_
  rwa [beq_iff_eq.1 same] at member

theorem sameFile_of_withSlashes {a b : String}
    (same : (withSlashes a).toList = (withSlashes b).toList) : sameFile a b = true :=
  beq_iff_eq.2 (congrArg (List.map Char.toLower) same)

/-- Paths of different lengths are not the same file. -/
theorem sameFile_eq_false {a b : String}
    (other : (withSlashes a).toList.length ≠ (withSlashes b).toList.length) :
    sameFile a b = false := by
  refine beq_eq_false_iff_ne.2 fun same => other ?_
  simpa using congrArg List.length same

/-! ## Separators -/

/-- The characters between the components of a path. -/
def separators : List Char := ['/', '\\']

/-- A path that begins with a drive letter and a colon, or with a separator that stands before
none. -/
def Anchored (path : String) : Prop :=
  hasDrive path.toList = true ∨
    ∃ separator rest, path.toList = separator :: rest ∧ separator ∈ separators ∧
      hasDrive rest = false

/-- Two paths that are equal but for what separates their components. -/
def EqualUpToSeparators (a b : String) : Prop :=
  List.Forall₂ (fun c d => c = d ∨ c ∈ separators ∧ d ∈ separators) a.toList b.toList

theorem toList_withSlashes (path : String) :
    (withSlashes path).toList = path.toList.map fun c => if c == '\\' then '/' else c :=
  String.toList_ofList

theorem hasDrive_cons_cons (c d : Char) (rest : List Char) :
    hasDrive (c :: d :: rest) = (d == ':' && c.isAlpha) := by
  by_cases colon : d = ':'
  · subst colon
    rfl
  · rw [hasDrive, beq_false_of_ne colon, Bool.false_and]
    rintro letter more ⟨⟩
    exact colon rfl

/-- A separator is no drive letter, and no colon either. -/
theorem hasDrive_slashes (text : List Char) :
    hasDrive (text.map fun c => if c == '\\' then '/' else c) = hasDrive text := by
  match text with
  | [] | [_] => rfl
  | c :: d :: rest =>
      rw [List.map_cons, List.map_cons, hasDrive_cons_cons, hasDrive_cons_cons]
      congr 1
      · split
        · next same => rw [beq_iff_eq.1 same]; rfl
        · rfl
      · split
        · next same => rw [beq_iff_eq.1 same]; rfl
        · rfl

/-- A path is placed wherever its slashes lean. -/
theorem isPlaced_of_anchored {path : String} (anchored : Anchored path) : isPlaced path = true := by
  have text := toList_withSlashes path
  rcases anchored with drive | ⟨separator, rest, whole, separates, driveless⟩
  · rw [← hasDrive_slashes, ← text] at drive
    rcases withSlashes_cases path with ⟨slash, -⟩ | ⟨same, -, placed⟩
    · rw [slash] at drive
      cases tail : body path with
      | nil => rw [tail] at drive; cases drive
      | cons c more => rw [tail, hasDrive_cons_cons, Bool.and_eq_true] at drive; cases drive.2
    · rw [placed, ← same, drive]
  · rw [whole, List.map_cons] at text
    have first : (if separator == '\\' then '/' else separator) = '/' := by
      simp only [separators, List.mem_cons, List.not_mem_nil, or_false] at separates
      rcases separates with rfl | rfl <;> rfl
    rw [first] at text
    have tail : body path = rest.map fun c => if c == '\\' then '/' else c := by
      rw [body, text]
      rfl
    rcases withSlashes_cases path with ⟨-, placed⟩ | ⟨same, slashless, -⟩
    · rw [placed, tail, hasDrive_slashes, driveless]
      rfl
    · rw [← same, text] at slashless
      exact absurd rfl slashless

theorem withSlashes_eq_iff (a b : String) :
    withSlashes a = withSlashes b ↔ EqualUpToSeparators a b := by
  have slashed (c d : Char) : ((if c == '\\' then '/' else c) = if d == '\\' then '/' else d) ↔
      c = d ∨ c ∈ separators ∧ d ∈ separators := by
    simp only [separators, List.mem_cons, List.not_mem_nil, or_false, beq_iff_eq]
    split <;> split <;> grind
  rw [EqualUpToSeparators, ← String.toList_inj, toList_withSlashes, toList_withSlashes,
    ← List.forall₂_eq_eq_eq, List.forall₂_map_left_iff, List.forall₂_map_right_iff]
  simp only [slashed]

end Path

namespace Uri

open DebugBridge.Path

theorem toList_ofPath (path : String) :
    (ofPath path).toList = scheme ++
      ((if (withSlashes path).toList.head? == some '/' then [] else ['/']) ++
        Text.Percent.encode isPlain (withSlashes path).toList) := by
  rw [ofPath, String.toList_ofList, List.append_assoc]

/-- What is left of the path in the URI. -/
theorem toPath_ofPath (path : String) :
    toPath (ofPath path) =
      String.ofList (if hasDrive (body path) then body path else '/' :: body path) := by
  have escapes : isPlain '%' = false := by decide
  have begins : ∃ rest, (ofPath path).toList = scheme ++ rest ∧
      Text.Percent.decode (Text.utf8 rest) = Text.utf8 ('/' :: body path) := by
    have read (text : List Char) :
        Text.Percent.decode (Text.utf8 (Text.Percent.encode isPlain text)) = Text.utf8 text := by
      simpa [Text.Percent.decode] using Text.Percent.decode_encode escapes text []
    rcases withSlashes_cases path with ⟨text, -⟩ | ⟨text, other, -⟩
    · refine ⟨Text.Percent.encode isPlain ('/' :: body path), ?_, read _⟩
      rw [toList_ofPath, text, if_pos (by rfl), List.nil_append]
    · refine ⟨'/' :: Text.Percent.encode isPlain (body path), ?_, ?_⟩
      · rw [toList_ofPath, text, if_neg (mt beq_iff_eq.1 other), List.singleton_append]
      · rw [Text.utf8_cons, Text.utf8_cons, Text.utf8EncodeChar_of_le (by decide),
          List.singleton_append, List.singleton_append,
          Text.Percent.decode_cons_of_ne (by decide), read]
  obtain ⟨rest, uri, decoded⟩ := begins
  rw [toPath, uri, Text.afterStart_eq_some.2 rfl]
  simp only [decoded, Text.utf8Lossy_utf8]

/-- A path comes back from its URI as the same file exactly if it is placed. -/
theorem sameFile_toPath_ofPath (path : String) :
    sameFile path (toPath (ofPath path)) = isPlaced path := by
  have clean := not_mem_body path
  have cleanToo : '\\' ∉ '/' :: body path := List.not_mem_cons_of_ne_of_not_mem (by decide) clean
  rw [toPath_ofPath]
  rcases withSlashes_cases path with ⟨text, placed⟩ | ⟨text, -, placed⟩
  · rw [placed]
    split
    · next drive =>
        rw [drive]
        refine sameFile_eq_false ?_
        rw [withSlashes_ofList clean, text, String.toList_ofList, List.length_cons]
        omega
    · next none_ =>
        rw [Bool.eq_false_iff.2 none_]
        refine sameFile_of_withSlashes ?_
        rw [withSlashes_ofList cleanToo, text, String.toList_ofList]
  · rw [placed]
    split
    · next drive =>
        rw [drive]
        refine sameFile_of_withSlashes ?_
        rw [withSlashes_ofList clean, text, String.toList_ofList]
    · next none_ =>
        rw [Bool.eq_false_iff.2 none_]
        refine sameFile_eq_false ?_
        rw [withSlashes_ofList cleanToo, text, String.toList_ofList, List.length_cons]
        omega

/-! ## Anchored paths -/

theorem toPath_ofPath_of_anchored {path : String} (anchored : Anchored path) :
    toPath (ofPath path) = withSlashes path := by
  have placed := isPlaced_of_anchored anchored
  rw [toPath_ofPath, ← String.toList_inj, String.toList_ofList]
  rcases withSlashes_cases path with ⟨text, same⟩ | ⟨text, -, same⟩
  · rw [placed, eq_comm, Bool.not_eq_true'] at same
    rw [same, text]
    rfl
  · rw [if_pos (same.symm.trans placed), text]

/-- The characters of a URI's path that stand for themselves. -/
def Plain (c : Char) : Prop := c.isAlphanum = true ∨ c ∈ ['/', ':', '-', '_', '.', '~']

theorem plain_of_isPlain {c : Char} (plain : isPlain c = true) : Plain c := by
  rw [isPlain, Bool.or_eq_true, List.contains_iff_mem] at plain
  exact plain

/-- A file URI is the scheme, and then characters that stand for themselves, and escapes. -/
theorem ofPath_escaped (path : String) :
    ∃ rest, (ofPath path).toList = scheme ++ rest ∧ Text.Percent.Escaped Plain rest := by
  have escaped (text : List Char) : Text.Percent.Escaped Plain (Text.Percent.encode isPlain text) :=
    (Text.Percent.escaped_encode isPlain text).mono fun c => plain_of_isPlain
  rw [toList_ofPath]
  refine ⟨_, rfl, ?_⟩
  generalize (withSlashes path).toList = text
  split
  · exact escaped text
  · exact .plain (.inr (by decide)) (escaped text)

/-- A path that is anchored is written as a URI of plain characters and escapes, and is read from it
with slashes; so two such paths have one URI if and only if nothing but separators tells them
apart. -/
theorem ofPath_faithful {path : String} (anchored : Anchored path) :
    (∃ rest, (ofPath path).toList = "file://".toList ++ rest ∧ Text.Percent.Escaped Plain rest) ∧
      toPath (ofPath path) = withSlashes path ∧
      ∀ other, Anchored other → (ofPath path = ofPath other ↔ EqualUpToSeparators path other) := by
  have back := toPath_ofPath_of_anchored anchored
  refine ⟨ofPath_escaped path, back, fun other otherAnchored => ?_⟩
  rw [← withSlashes_eq_iff]
  constructor
  · intro same
    rw [← back, same, toPath_ofPath_of_anchored otherAnchored]
  · intro same
    rw [ofPath, ofPath, same]

/-- Blanks, percent signs and characters beyond ASCII are escaped. -/
theorem ofPath_faithful_drive :
    Anchored "c:\\é 5%\\x" ∧ Anchored "c:/é 5%\\x" ∧
      ofPath "c:\\é 5%\\x" = "file:///c:/%C3%A9%205%25/x" ∧
      toPath (ofPath "c:\\é 5%\\x") = withSlashes "c:\\é 5%\\x" ∧
      EqualUpToSeparators "c:\\é 5%\\x" "c:/é 5%\\x" := by
  have leaning : Anchored "c:\\é 5%\\x" := .inl (by decide)
  have mixed : Anchored "c:/é 5%\\x" := .inl (by decide)
  obtain ⟨-, back, same⟩ := ofPath_faithful leaning
  exact ⟨leaning, mixed, by decide +kernel, back, (same _ mixed).1 (by decide +kernel)⟩

end Uri
end DebugBridge
