import DebugBridge.Proofs.Script.Cuts

/-!
# Scans end

Nothing that is nested in a construct need end before the construct does, so the ranges of a scan do
not shrink.  What shrinks is the rest of the file after the place of a scan: every turn goes on further
down, and every inside starts after its opener.  Hence the rules of a scan and of the search for
accessors, which set no bound on the number of their turns, lead to an end from everywhere.
-/

namespace DebugBridge
namespace Source

open Text

/-- An opener whose inside starts after an offset and after the opener itself, and is in the file. -/
def InsideAfter (source : Source) (pos : Nat) (opener : Opener) : Prop :=
  ∀ range, opener.inside = some range →
    pos < range.1 ∧ opener.location.start < range.1 ∧ range.2 ≤ source.size

/-- The search for accessors in the lines before the one with a number, from the line that starts at
an offset on. -/
inductive Collects (source : Source) (last : Nat) : Nat → Option (List Opener) → Prop
  | done {start : Nat} (reached : last ≤ source.lineOf start) : Collects source last start (some [])
  | stuck {start : Nat} (before : source.lineOf start < last)
      (cut : source.accessor? start = none) : Collects source last start none
  | pass {start : Nat} {result : Option (List Opener)} (before : source.lineOf start < last)
      (other : source.accessor? start = some none)
      (rest : Collects source last (source.nextLineStart start) result) :
      Collects source last start result
  | found {start resume : Nat} {accessor : Opener} {others : Option (List Opener)}
      (before : source.lineOf start < last)
      (here : source.accessor? start = some (some (accessor, resume)))
      (rest : Collects source last resume others) :
      Collects source last start (others.map (accessor :: ·))

/-- The node of an accessor around the nodes of its inside. -/
def accessorAround (scope : List String) (accessor : Opener) (inside : Option (List Node)) :
    Option Node := do
  return .mk accessor.kind scope accessor.location (← inside)

/-- The scan of a range from an offset on.  A scan enters the inside of what it finds and goes on
after it. -/
inductive Scans (source : Source) : Nat → Nat → List String → Bool → Option (List Node) → Prop
  | done {pos limit : Nat} {scope : List String} {inClass : Bool} (reached : limit ≤ pos) :
      Scans source pos limit scope inClass (some [])
  | stuck {pos limit : Nat} {scope : List String} {inClass : Bool} (before : pos < limit)
      (cut : source.turnAt? pos limit inClass = none) : Scans source pos limit scope inClass none
  | pass {pos limit next : Nat} {scope : List String} {inClass : Bool}
      {result : Option (List Node)} (before : pos < limit)
      (turn : source.turnAt? pos limit inClass = some (.pass next))
      (rest : Scans source next limit scope inClass result) :
      Scans source pos limit scope inClass result
  | found {pos limit next : Nat} {scope : List String} {inClass : Bool} {opener : Opener}
      {accessors : List Opener} {inside others : Option (List Node)}
      {within : Opener → Option (List Node)} (before : pos < limit)
      (turn : source.turnAt? pos limit inClass = some (.found opener accessors next))
      (flat : opener.inside = none → inside = some [])
      (enters : ∀ range, opener.inside = some range →
        Scans source range.1 range.2 (scope ++ opener.kind.name?.toList) opener.kind.isClass inside)
      (flatAccessors : ∀ accessor ∈ accessors, accessor.inside = none → within accessor = some [])
      (entersAccessors : ∀ accessor ∈ accessors, ∀ range, accessor.inside = some range →
        Scans source range.1 range.2
          (scope ++ opener.kind.name?.toList ++ accessor.kind.name?.toList) false (within accessor))
      (rest : Scans source next limit scope inClass others) :
      Scans source pos limit scope inClass (do
        let inner := scope ++ opener.kind.name?.toList
        let inside ← inside
        let nested ← accessors.mapM fun accessor =>
          accessorAround inner accessor (within accessor)
        return .mk opener.kind scope opener.location (inside ++ nested) :: (← others))

/-- A file whose scans end. -/
structure Ends (source : Source) : Prop where
  /-- A block ends after its brace, and in the file. -/
  block : ∀ brace margin, source.masked[brace]? = some 123 →
    brace < source.blockEnd brace margin ∧ source.blockEnd brace margin ≤ source.size
  /-- A turn goes on after its place, and what it finds is entered after that place. -/
  turn : ∀ pos limit inClass turn, pos < limit → limit ≤ source.size →
    source.turnAt? pos limit inClass = some turn →
    pos < turn.next ∧ turn.next ≤ source.size ∧
      ∀ opener ∈ turn.openers, source.InsideAfter pos opener
  /-- The search for accessors goes on after each line. -/
  line : ∀ start, start < source.size → start < source.nextLineStart start
  /-- It goes on after each accessor, which is entered after the start of its line. -/
  accessor : ∀ start ∈ source.lineStarts, ∀ accessor resume,
    source.accessor? start = some (some (accessor, resume)) →
    start < resume ∧ resume ≤ source.size ∧ source.InsideAfter start accessor
  /-- The search through a block ends. -/
  collects : ∀ brace stop result, brace < source.size → stop ≤ source.size →
    (source.Collects (source.lineOf (stop - 1)) (source.nextLineStart brace) result ↔
      result = source.accessors? brace stop)
  /-- The scan of a range of the file ends. -/
  scans : ∀ pos limit scope inClass result, limit ≤ source.size →
    (source.Scans pos limit scope inClass result ↔ result = source.scan? pos limit scope inClass)

section Steps

variable {source : Source} {text masked : List Char} (reads : source.Reads text masked)

theorem blockEnd_range {brace margin : Nat} (byte : source.masked[brace]? = some 123) :
    brace < source.blockEnd brace margin ∧ source.blockEnd brace margin ≤ source.size :=
  ⟨lt_blockEnd (Nat.le_refl brace) (Array.getElem?_eq_some_iff.1 byte).1,
    source.blockEnd_le_size brace margin⟩

/-- The inside of a block that a header has come to. -/
theorem insideAfter_block {pos start brace margin : Nat} {kind : Kind} {location : Location}
    (le : pos ≤ start) (byte : source.masked[brace]? = some 123) (first : start ≤ brace)
    (located : source.location? start (source.blockEnd brace margin) = some location) :
    source.InsideAfter pos
      ⟨kind, location, some (brace + 1, source.blockEnd brace margin - 1)⟩ := by
  rintro _ ⟨⟩
  have start_eq := (location_of_block byte first located).1
  have last := source.blockEnd_le_size brace margin
  dsimp only
  omega

include reads

theorem nextLineStart_le_size (index : Nat) : source.nextLineStart index ≤ source.size :=
  le_size_of_isBoundary (reads.between_nextLineStart index).masked

/-- A line with an accessor is no empty line at the end of the file. -/
theorem lt_size_of_accessor? {start : Nat} {found : Opener × Nat} (begins : start ∈ source.lineStarts)
    (here : source.accessor? start = some (some found)) : start < source.size := by
  refine Nat.lt_of_not_le fun beyond => ?_
  have empty : source.maskedLine start = [] := by
    have last := reads.lineEnd_le_size start
    rw [maskedLine, charsOf, reads.lineStart_of_mem begins,
      Array.extract_empty_of_stop_le_start (Nat.le_trans last beyond)]
    exact utf8Lossy_utf8 []
  rw [accessor?, empty] at here
  cases here

/-- An accessor goes on after the start of its line, and so does its inside. -/
theorem accessor_forward {start resume : Nat} {accessor : Opener}
    (begins : start ∈ source.lineStarts)
    (here : source.accessor? start = some (some (accessor, resume))) :
    start < resume ∧ resume ≤ source.size ∧ source.InsideAfter start accessor := by
  have inFile := lt_size_of_accessor? reads begins here
  cases accessorAt_of_accessor? reads begins here with
  | arrow flat located =>
      exact ⟨lt_nextLineStart (Nat.le_refl _) inFile, nextLineStart_le_size reads _, by rintro _ ⟨⟩⟩
  | @block kind location brace lined byte first reached located =>
      have after : brace < source.blockEnd brace (source.indent start) := (blockEnd_range byte).1
      exact ⟨lt_nextLineStart (by omega) inFile, nextLineStart_le_size reads _,
        insideAfter_block (Nat.le_add_right _ _) byte first located⟩

/-- A turn goes on after its place, and what it finds is entered after that place. -/
theorem turn_forward {pos limit : Nat} {inClass : Bool} {turn : Turn} (before : pos < limit)
    (inside : limit ≤ source.size) (found : source.turnAt? pos limit inClass = some turn) :
    pos < turn.next ∧ turn.next ≤ source.size ∧
      ∀ opener ∈ turn.openers, source.InsideAfter pos opener := by
  refine ⟨(turnAt?_advances (Nat.lt_of_lt_of_le before inside) found).1, ?_⟩
  rcases opens_of_turnAt? reads before found with
    rfl | ⟨segment, opener, accessors, next, looked, rfl, opens⟩
  · exact ⟨nextLineStart_le_size reads pos, List.forall_mem_nil _⟩
  · have low : pos ≤ codeStart pos segment := Nat.le_add_right _ _
    cases opens with
    | comment begins ends located | line begins code flat located
    | arrow flat first last further located =>
        exact ⟨nextLineStart_le_size reads _, List.forall_mem_singleton.2 (by rintro _ ⟨⟩)⟩
    | block lined byte first reached located =>
        exact ⟨source.blockEnd_le_size _ _,
          List.forall_mem_singleton.2 (insideAfter_block low byte first located)⟩
    | property lined byte first reached located accessed =>
        refine ⟨source.blockEnd_le_size _ _, List.forall_mem_cons.2 ⟨by rintro _ ⟨⟩, ?_⟩⟩
        intro accessor member range enters
        obtain ⟨start, begins, resume, after, -, found⟩ :=
          (accessors_of_accessors? reads accessed).2 accessor member
        cases found with
        | arrow flat located => cases enters
        | block lined byte first reached located =>
            exact insideAfter_block (by omega) byte first located range enters

end Steps

/-! ## The search for accessors -/

section Accessors

variable {source : Source} {text masked : List Char} (reads : source.Reads text masked)

/-- The next line starts with the file's end or where a line starts. -/
theorem nextLineStart_cases (index : Nat) :
    source.nextLineStart index ∈ source.lineStarts ∨ source.nextLineStart index = source.size := by
  unfold nextLineStart
  cases found : source.lineStarts.find? fun start => index < start with
  | none => exact .inr rfl
  | some start => exact .inl (Array.mem_of_find?_eq_some found)

/-- From a place on that no line is before, every line counts. -/
theorem accessorsFrom_of_le {starts : List Nat} {resume : Nat}
    (le : ∀ start ∈ starts, resume ≤ start) :
    source.accessorsFrom resume starts = source.accessorsFrom 0 starts := by
  induction starts with
  | nil => rfl
  | cons start rest ih =>
      rw [List.forall_mem_cons] at le
      rw [accessorsFrom, accessorsFrom, if_neg (Nat.not_lt.2 le.1), if_neg (Nat.not_lt_zero start),
        ih le.2]

include reads

/-- A line that starts after an offset starts no earlier than the next line. -/
theorem nextLineStart_le {index start : Nat} (member : start ∈ source.lineStarts)
    (after : index < start) : source.nextLineStart index ≤ start := by
  obtain ⟨earlier, first, later, onLine⟩ := reads.exists_onLine index
  have sorted := reads.pairwise_lineStarts
  rw [onLine.starts, List.toList_toArray] at sorted
  rw [onLine.starts] at member
  rw [onLine.nextLineStart_eq reads]
  have lower := onLine.lower
  simp only [List.mem_toArray, List.mem_append, List.mem_cons] at member
  rcases member with before | rfl | found
  · have := onLine.lt_of_mem_earlier reads before
    omega
  · omega
  · cases later with
    | nil => cases found
    | cons next later =>
        obtain ⟨apart, -⟩ :=
          List.pairwise_cons.1 (List.pairwise_cons.1 (List.pairwise_append.1 sorted).2.1).2
        rcases List.mem_cons.1 found with rfl | found
        · exact Nat.le_refl _
        · exact Nat.le_of_lt (apart start found)

/-- Where the search for accessors goes on, a line starts, or the file ends. -/
theorem resume_cases {start resume : Nat} {accessor : Opener} (begins : start ∈ source.lineStarts)
    (here : source.accessor? start = some (some (accessor, resume))) :
    resume ∈ source.lineStarts ∨ resume = source.size := by
  cases accessorAt_of_accessor? reads begins here with
  | arrow flat located | block lined byte first reached located => exact nextLineStart_cases _

/-- The search looks at the line that it goes on with, and goes on after it. -/
theorem collects_cons {last start : Nat} {rest : List Nat} (begins : start ∈ source.lineStarts)
    (before : source.lineOf start < last) (inFile : start < source.size)
    (member : ∀ other ∈ rest, other ∈ source.lineStarts) (after : ∀ other ∈ rest, start < other)
    (goOn : ∀ resume, resume ∈ source.lineStarts ∨ resume = source.size → start < resume →
      source.Collects last resume (source.accessorsFrom resume rest)) :
    source.Collects last start (source.accessorsFrom start (start :: rest)) := by
  rw [accessorsFrom, if_neg (Nat.lt_irrefl start)]
  cases here : source.accessor? start with
  | none => exact .stuck before here
  | some found =>
      cases found with
      | none =>
          have next := goOn _ (nextLineStart_cases start) (lt_nextLineStart (Nat.le_refl start) inFile)
          rw [accessorsFrom_of_le fun other place =>
            nextLineStart_le reads (member other place) (after other place)] at next
          refine .pass before here ?_
          rwa [Option.bind_eq_bind, Option.bind_some,
            accessorsFrom_of_le fun other place => Nat.le_of_lt (after other place)]
      | some found =>
          obtain ⟨accessor, resume⟩ := found
          have further := (accessor_forward reads begins here).1
          have found := Collects.found before here
            (goOn resume (resume_cases reads begins here) further)
          rw [Option.map_eq_bind] at found
          exact found

theorem lt_of_mem_later {start : Nat} {done rest : List Nat}
    (starts : source.lineStarts.toList = done ++ start :: rest) : ∀ other ∈ rest, start < other := by
  have sorted := reads.pairwise_lineStarts
  rw [starts] at sorted
  exact (List.pairwise_cons.1 (List.pairwise_append.1 sorted).2.1).1

/-- If the lines before one are done and the search has not passed it, it goes on there. -/
theorem resume_eq {start resume : Nat} {done rest : List Nat}
    (starts : source.lineStarts.toList = done ++ start :: rest)
    (begins : resume ∈ source.lineStarts ∨ resume = source.size)
    (past : ∀ start ∈ done, start < resume) (before : ¬ (start < resume)) : resume = start := by
  rcases begins with here | rfl
  · rw [← Array.mem_toList_iff, starts, List.mem_append, List.mem_cons] at here
    rcases here with here | here | here
    · exact absurd (past resume here) (Nat.lt_irrefl resume)
    · exact here
    · exact absurd (lt_of_mem_later reads starts resume here) before
  · have member : start ∈ source.lineStarts := by
      rw [← Array.mem_toList_iff, starts]
      exact List.mem_append_right done List.mem_cons_self
    exact Nat.le_antisymm (Nat.le_of_not_lt before)
      (le_size_of_isBoundary (reads.between_of_mem member).masked)

omit reads in
/-- From the last line of a block on there is nothing to look at. -/
theorem filter_lineOf_eq_nil {last start : Nat} {rest : List Nat}
    (reached : last ≤ source.lineOf start) (after : ∀ other ∈ rest, start < other) :
    (start :: rest).filter (fun other => source.lineOf other < last) = [] := by
  rw [List.filter_eq_nil_iff]
  intro other place
  have le : start ≤ other := by
    rcases List.mem_cons.1 place with rfl | place
    · exact Nat.le_refl _
    · exact Nat.le_of_lt (after other place)
  simpa using Nat.le_trans reached (source.lineOf_mono le)

/-- The search goes through the lines from the one that it goes on with. -/
theorem collects_accessorsFrom {last resume : Nat} {done todo : List Nat}
    (limited : last ≤ source.lineOf source.size) (starts : source.lineStarts.toList = done ++ todo)
    (begins : resume ∈ source.lineStarts ∨ resume = source.size)
    (past : ∀ start ∈ done, start < resume) :
    source.Collects last resume
      (source.accessorsFrom resume (todo.filter fun start => source.lineOf start < last)) := by
  induction todo generalizing done resume with
  | nil =>
      rw [List.append_nil] at starts
      rcases begins with member | rfl
      · rw [← Array.mem_toList_iff, starts] at member
        exact absurd (past resume member) (Nat.lt_irrefl resume)
      · exact .done limited
  | cons start rest ih =>
      have goOn (next : Nat) (begins : next ∈ source.lineStarts ∨ next = source.size)
          (past : ∀ start ∈ done, start < next) (before : start < next) :
          source.Collects last next
            (source.accessorsFrom next (rest.filter fun start => source.lineOf start < last)) :=
        have next : source.lineStarts.toList = (done ++ [start]) ++ rest := by simp [starts]
        ih next begins (by simpa [or_imp, forall_and] using ⟨past, before⟩)
      by_cases before : start < resume
      · have tail := goOn resume begins past before
        by_cases kept : source.lineOf start < last
        · rwa [List.filter_cons_of_pos (by simpa using kept), accessorsFrom, if_pos before]
        · rwa [List.filter_cons_of_neg (by simpa using kept)]
      · have after := lt_of_mem_later reads starts
        obtain rfl := resume_eq reads starts begins past before
        by_cases kept : source.lineOf resume < last
        · have inFile : resume < source.size := Nat.lt_of_not_le fun beyond =>
            absurd (source.lineOf_mono beyond) (Nat.not_le.2 (Nat.lt_of_lt_of_le kept limited))
          have member (other : Nat) (place : other ∈ resume :: rest) : other ∈ source.lineStarts := by
            rw [← Array.mem_toList_iff, starts]
            exact List.mem_append_right done place
          rw [List.filter_cons_of_pos (by simpa using kept)]
          refine collects_cons reads (member resume List.mem_cons_self) kept inFile ?_ ?_ ?_
          · exact fun other place => member other (.tail _ (List.mem_of_mem_filter place))
          · exact fun other place => after other (List.mem_of_mem_filter place)
          · exact fun next begins further => goOn next begins
              (fun other place => Nat.lt_trans (past other place) further) further
        · have reached := Nat.le_of_not_lt kept
          rw [filter_lineOf_eq_nil reached after]
          exact .done reached

omit reads in
/-- The rules of the search have one result at most. -/
theorem Collects.unique {last start : Nat} {result other : Option (List Opener)}
    (collects : source.Collects last start result) (again : source.Collects last start other) :
    result = other := by
  induction collects generalizing other with
  | done reached =>
      cases again with
      | done => rfl
      | stuck before | pass before | found before => exact absurd before (Nat.not_lt.2 reached)
  | stuck before cut =>
      cases again with
      | done reached => exact absurd before (Nat.not_lt.2 reached)
      | stuck => rfl
      | pass before here | found before here =>
          rw [cut] at here
          cases here
  | pass before here rest ih =>
      cases again with
      | done reached => exact absurd before (Nat.not_lt.2 reached)
      | pass before here tail => exact ih tail
      | stuck before there | found before there =>
          rw [here] at there
          cases there
  | found before here rest ih =>
      cases again with
      | done reached => exact absurd before (Nat.not_lt.2 reached)
      | stuck before there | pass before there =>
          rw [here] at there
          cases there
      | found before there tail =>
          rw [here] at there
          cases there
          rw [ih tail]

/-- The search through a block ends with the accessors that the block has. -/
theorem collects_iff {brace stop : Nat} {result : Option (List Opener)} (inFile : brace < source.size)
    (inside : stop ≤ source.size) :
    source.Collects (source.lineOf (stop - 1)) (source.nextLineStart brace) result ↔
      result = source.accessors? brace stop := by
  have ends : source.Collects (source.lineOf (stop - 1)) (source.nextLineStart brace)
      (source.accessors? brace stop) := by
    obtain ⟨earlier, start, later, onLine⟩ := reads.exists_onLine brace
    have starts : source.lineStarts.toList = (earlier ++ [start]) ++ later := by
      rw [onLine.starts]
      simp
    have further := lt_nextLineStart (Nat.le_refl brace) inFile
    have before (place : Nat) (member : place ∈ earlier ++ [start]) : ¬ (brace < place) :=
      of_decide_eq_false (onLine.not_lt_of_mem reads member)
    have limited : source.lineOf (stop - 1) ≤ source.lineOf source.size :=
      source.lineOf_mono (Nat.le_trans (Nat.sub_le stop 1) inside)
    have collects := collects_accessorsFrom reads limited starts (nextLineStart_cases brace)
      fun place member => Nat.lt_of_le_of_lt (Nat.le_of_not_lt (before place member)) further
    have none_ : (earlier ++ [start]).filter (fun start =>
        brace < start && source.lineOf start < source.lineOf (stop - 1)) = [] := by
      rw [List.filter_eq_nil_iff]
      intro place member
      simp [before place member]
    have same : later.filter (fun start =>
          brace < start && source.lineOf start < source.lineOf (stop - 1)) =
        later.filter fun start => source.lineOf start < source.lineOf (stop - 1) :=
      List.filter_congr fun place member => by simp [onLine.upper place member]
    rw [accessorsFrom_of_le fun place member => ?_] at collects
    · rwa [accessors?, starts, List.filter_append, none_, same, List.nil_append]
    · have place := List.mem_of_mem_filter member
      refine nextLineStart_le reads ?_ (onLine.upper _ place)
      rw [← Array.mem_toList_iff, starts]
      exact List.mem_append_right _ place
  exact ⟨fun collects => collects.unique ends, fun eq => eq ▸ ends⟩

end Accessors

/-! ## Scans -/

section Scans

variable {source : Source} {text masked : List Char} (reads : source.Reads text masked)

theorem eq_within? {inside : Option (Nat × Nat)} {scope : List String} {inClass : Bool}
    {nodes : Option (List Node)} (flat : inside = none → nodes = some [])
    (enters : ∀ range, inside = some range →
      nodes = source.scan? range.1 range.2 scope inClass) :
    nodes = source.within? inside scope inClass := by
  cases inside with
  | none => exact flat rfl
  | some range => exact enters range rfl

/-- Accessors that are alike inside have the same nodes. -/
theorem mapM_accessorAround {scope : List String} {accessors : List Opener}
    {within : Opener → Option (List Node)}
    (same : ∀ accessor ∈ accessors, within accessor =
      source.within? accessor.inside (scope ++ accessor.kind.name?.toList) false) :
    (accessors.mapM fun accessor => accessorAround scope accessor (within accessor)) =
      accessors.mapM (source.accessorNode? scope) := by
  induction accessors with
  | nil => rfl
  | cons accessor rest ih =>
      rw [List.forall_mem_cons] at same
      rw [List.mapM_cons, List.mapM_cons, ih same.2, same.1]
      rfl

include reads

/-- The rules of a scan lead from everywhere to what the scan finds. -/
theorem scans_scan? {pos limit : Nat} (scope : List String) (inClass : Bool)
    (inside : limit ≤ source.size) :
    source.Scans pos limit scope inClass (source.scan? pos limit scope inClass) := by
  induction size : source.size - pos using Nat.strong_induction_on
    generalizing pos limit scope inClass with
  | h size ih =>
      by_cases before : pos < limit
      · have inFile : pos < limit ∧ pos < source.size := ⟨before, Nat.lt_of_lt_of_le before inside⟩
        cases found : source.turnAt? pos limit inClass with
        | none =>
            rw [scan?_stuck inFile found]
            exact .stuck before found
        | some turn =>
            obtain ⟨further, -, openers⟩ := turn_forward reads before inside found
            have goOn : source.Scans turn.next limit scope inClass
                (source.scan? turn.next limit scope inClass) :=
              ih _ (by omega) scope inClass inside rfl
            cases turn with
            | pass next =>
                rw [scan?_pass inFile found]
                exact .pass before found goOn
            | found opener accessors next =>
                have enter {other : Opener} (member : other ∈ opener :: accessors)
                    (range : Nat × Nat) (enters : other.inside = some range) (scope : List String)
                    (inClass : Bool) : source.Scans range.1 range.2 scope inClass
                      (source.within? other.inside scope inClass) := by
                  obtain ⟨after, -, last⟩ := openers other member range enters
                  rw [enters]
                  exact ih _ (by omega) scope inClass last rfl
                rw [scan?_eq_bind inFile found]
                have flat {other : Opener} (scope : List String) (inClass : Bool)
                    (flat : other.inside = none) :
                    source.within? other.inside scope inClass = some [] := by
                  rw [flat]
                  rfl
                have flatAccessors : ∀ accessor ∈ accessors, accessor.inside = none →
                    source.within? accessor.inside
                      (scope ++ opener.kind.name?.toList ++ accessor.kind.name?.toList) false =
                        some [] := fun accessor _ => flat _ _
                exact .found before found (flat _ _)
                  (fun range enters => enter List.mem_cons_self range enters _ _) flatAccessors
                  (fun accessor member range enters => enter (.tail _ member) range enters _ _) goOn
      · rw [scan?_outside fun inFile => before inFile.1]
        exact .done (Nat.le_of_not_lt before)

/-- What the rules of a scan lead to is what the scan finds. -/
theorem Scans.eq_scan? {pos limit : Nat} {scope : List String} {inClass : Bool}
    {result : Option (List Node)} (inside : limit ≤ source.size)
    (scans : source.Scans pos limit scope inClass result) :
    result = source.scan? pos limit scope inClass := by
  induction scans with
  | done reached => rw [scan?_outside fun inFile => Nat.not_lt.2 reached inFile.1]
  | stuck before cut => rw [scan?_stuck ⟨before, Nat.lt_of_lt_of_le before inside⟩ cut]
  | pass before found rest ih =>
      rw [scan?_pass ⟨before, Nat.lt_of_lt_of_le before inside⟩ found, ih inside]
  | @found pos limit next scope inClass opener accessors inner others within before found flat enters
      flatAccessors entersAccessors rest entered enteredAccessors goOn =>
      obtain ⟨-, -, openers⟩ := turn_forward reads before inside found
      have last {other : Opener} (member : other ∈ opener :: accessors) (range : Nat × Nat)
          (enters : other.inside = some range) : range.2 ≤ source.size :=
        (openers other member range enters).2.2
      have head : inner = source.within? opener.inside (scope ++ opener.kind.name?.toList)
          opener.kind.isClass :=
        eq_within? flat fun range enters => entered range enters (last List.mem_cons_self range enters)
      have each : ∀ accessor ∈ accessors, within accessor = source.within? accessor.inside
          (scope ++ opener.kind.name?.toList ++ accessor.kind.name?.toList) false :=
        fun accessor member => eq_within? (flatAccessors accessor member) fun range enters =>
          enteredAccessors accessor member range enters (last (.tail _ member) range enters)
      rw [scan?_eq_bind ⟨before, Nat.lt_of_lt_of_le before inside⟩ found, head, goOn inside]
      dsimp only
      rw [mapM_accessorAround each]

/-- Scans of a file end. -/
theorem Reads.ends : source.Ends where
  block _ _ byte := blockEnd_range byte
  turn _ _ _ _ before inside found := turn_forward reads before inside found
  line _ inFile := lt_nextLineStart (Nat.le_refl _) inFile
  accessor _ begins _ _ here := accessor_forward reads begins here
  collects _ _ _ inFile inside := collects_iff reads inFile inside
  scans _ _ scope inClass _ inside :=
    ⟨Scans.eq_scan? reads inside, fun eq => eq ▸ scans_scan? reads scope inClass inside⟩

end Scans

end Source

namespace IncludeContext

open Source

/-- Whatever a text is, its scan ends: with the nodes that the rules lead to, the includes among them
resolved, or else where the rules lead to a cut inside a character. -/
theorem scanSource_ends (context : IncludeContext) (host : Host) (path : String) (text : List Char) :
    let source := Source.ofText context.version path text
    source.Ends ∧
      ((source.Scans 0 source.size [] false none ∧
          context.scanSource host path text = .error .splitCharacter) ∨
        ∃ nodes linked walk, source.Scans 0 source.size [] false (some nodes) ∧
          Node.linkAll (context.follower host path stay) false ⟨[], context.initialBase path⟩ nodes =
            some (linked, walk) ∧
          context.scanSource host path text = .ok ⟨source, linked⟩) := by
  have ends := Reads.ends (reads_ofText context.version path text)
  refine ⟨ends, ?_⟩
  rw [scanSource, scanText]
  dsimp only
  cases scanned : (Source.ofText context.version path text).scan? 0
      (Source.ofText context.version path text).size [] false with
  | none =>
      exact .inl ⟨(ends.scans _ _ _ _ _ (Nat.le_refl _)).2 scanned.symm, rfl⟩
  | some nodes =>
      obtain ⟨⟨linked, walk⟩, found⟩ : ∃ linked, Node.linkAll (context.follower host path stay) false
          ⟨[], context.initialBase path⟩ nodes = some linked :=
        Follower.exists_linkAll (fun _ _ _ _ => ⟨_, rfl⟩) nodes false _
      refine .inr ⟨nodes, linked, walk, (ends.scans _ _ _ _ _ (Nat.le_refl _)).2 scanned.symm,
        found, ?_⟩
      rw [Option.bind_eq_bind, Option.bind_some, found]
      rfl

/-- A block in another one, left open beyond the end of the other one. -/
example : (let source := Source.ofText .v2 "a.ahk" "  F() \x7b\nG() \x7b \x7b\n  \x7d\n".toList
    source.blockEnd 6 2 = 19 ∧ source.blockEnd 12 0 = source.size ∧ source.size = 20) := by
  decide +kernel

end IncludeContext
end DebugBridge
