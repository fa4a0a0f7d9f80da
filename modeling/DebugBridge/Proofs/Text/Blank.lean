import DebugBridge.Text.Blank
import Mathlib.Data.List.Infix
import Mathlib.Data.List.TakeWhile

/-!
# Texts taken apart

What follows a given beginning of a text, or precedes a given end, is all the rest of it.  A text is
cut at each occurrence of a character, or at the first or the last one only: the pieces are without
that character, and nothing of the text is lost.
-/

namespace DebugBridge
namespace Text

/-! ## Beginnings and ends -/

theorem afterStart_eq_some {start text rest : List Char} :
    afterStart start text = some rest ↔ text = start ++ rest := by
  induction start generalizing text with
  | nil => exact Option.some_inj
  | cons a start ih =>
      cases text with
      | nil => exact iff_of_false nofun nofun
      | cons c text =>
          rw [afterStart, List.cons_append, List.cons.injEq]
          split
          · next same => exact ih.trans (and_iff_right (beq_iff_eq.1 same).symm).symm
          · next other => exact iff_of_false nofun fun both => other (beq_iff_eq.2 both.1.symm)

/-- A text has a given beginning exactly if something follows it. -/
theorem isSome_afterStart (start text : List Char) :
    (afterStart start text).isSome = true ↔ start <+: text := by
  simp only [Option.isSome_iff_exists, afterStart_eq_some]
  exact exists_congr fun rest => eq_comm

theorem beforeEnd_eq_some {finish text rest : List Char} :
    beforeEnd finish text = some rest ↔ text = rest ++ finish := by
  rw [beforeEnd, Option.map_eq_some_iff]
  constructor
  · rintro ⟨reversed, found, rfl⟩
    rw [← List.reverse_reverse text, afterStart_eq_some.1 found, List.reverse_append,
      List.reverse_reverse]
  · rintro rfl
    exact ⟨rest.reverse, afterStart_eq_some.2 List.reverse_append, List.reverse_reverse rest⟩

/-- A text has a given end exactly if something precedes it. -/
theorem isSome_beforeEnd (finish text : List Char) :
    (beforeEnd finish text).isSome = true ↔ finish <:+ text := by
  simp only [Option.isSome_iff_exists, beforeEnd_eq_some]
  exact ⟨fun ⟨rest, whole⟩ => ⟨rest, whole.symm⟩, fun ⟨rest, whole⟩ => ⟨rest, whole.symm⟩⟩

/-! ## Cut at each occurrence of a character -/

variable {separator : Char} {text piece before after : List Char}

theorem splitAtChar_ne_nil (separator : Char) (text : List Char) :
    splitAtChar separator text ≠ [] := by
  cases text with
  | nil => exact List.cons_ne_nil _ _
  | cons c text =>
      rw [splitAtChar]
      split
      · exact List.cons_ne_nil _ _
      · split <;> exact List.cons_ne_nil _ _

theorem splitAtChar_cons_self (text : List Char) :
    splitAtChar separator (separator :: text) = [] :: splitAtChar separator text :=
  if_pos (beq_self_eq_true separator)

/-- An occurrence of the character is where the pieces before it end. -/
theorem splitAtChar_append (text rest : List Char) :
    splitAtChar separator (text ++ separator :: rest) =
      splitAtChar separator text ++ splitAtChar separator rest := by
  induction text with
  | nil => exact splitAtChar_cons_self rest
  | cons c text ih =>
      obtain ⟨piece, pieces, cut⟩ := List.exists_cons_of_ne_nil (splitAtChar_ne_nil separator text)
      rw [List.cons_append, splitAtChar, splitAtChar, ih, cut]
      split <;> rfl

theorem splitAtChar_of_notMem (plain : separator ∉ text) : splitAtChar separator text = [text] := by
  induction text with
  | nil => rfl
  | cons c text ih =>
      obtain ⟨other, plain⟩ := not_or.1 (mt List.mem_cons.2 plain)
      rw [splitAtChar, if_neg (mt beq_iff_eq.1 (Ne.symm other)), ih plain]

theorem splitAtChar_append_of_notMem (plain : separator ∉ piece) (rest : List Char) :
    splitAtChar separator (piece ++ separator :: rest) = piece :: splitAtChar separator rest := by
  rw [splitAtChar_append, splitAtChar_of_notMem plain, List.singleton_append]

/-- A text is without the character, or a first piece stands before an occurrence and another text
after it. -/
@[elab_as_elim]
theorem pieces_induction {motive : List Char → Prop} (separator : Char) (text : List Char)
    (plain : ∀ text, separator ∉ text → motive text)
    (cut : ∀ piece rest, separator ∉ piece → motive rest → motive (piece ++ separator :: rest)) :
    motive text := by
  induction size : text.length using Nat.strongRecOn generalizing text with
  | ind size ih =>
      by_cases member : separator ∈ text
      · obtain ⟨piece, rest, rfl, first⟩ := List.eq_append_cons_of_mem member
        refine cut piece rest first (ih rest.length ?_ rest rfl)
        rw [← size, List.length_append, List.length_cons]
        omega
      · exact plain text member

theorem notMem_of_mem_splitAtChar (member : piece ∈ splitAtChar separator text) :
    separator ∉ piece := by
  induction text using pieces_induction separator with
  | plain text plain =>
      rw [splitAtChar_of_notMem plain, List.mem_singleton] at member
      exact member ▸ plain
  | cut first rest plain ih =>
      rw [splitAtChar_append_of_notMem plain, List.mem_cons] at member
      exact member.elim (fun same => same ▸ plain) ih

/-- The pieces are made of the text. -/
theorem subset_of_mem_splitAtChar (member : piece ∈ splitAtChar separator text) : piece ⊆ text := by
  induction text using pieces_induction separator with
  | plain text plain =>
      rw [splitAtChar_of_notMem plain, List.mem_singleton] at member
      exact member ▸ List.Subset.refl text
  | cut first rest plain ih =>
      rw [splitAtChar_append_of_notMem plain, List.mem_cons] at member
      rcases member with rfl | member
      · exact List.subset_append_left _ _
      · exact List.subset_append_of_subset_right _ (List.subset_cons_of_subset _ (ih member))

/-! ## Cut at one occurrence -/

theorem splitOnce_of_notMem (plain : separator ∉ text) : splitOnce separator text = none := by
  have all : text.dropWhile (· != separator) = [] :=
    List.dropWhile_eq_nil_iff.2 fun c member => bne_iff_ne.2 fun same => plain (same ▸ member)
  rw [splitOnce, all]

theorem splitOnce_append (plain : separator ∉ before) (after : List Char) :
    splitOnce separator (before ++ separator :: after) = some (before, after) := by
  have passed (c : Char) (member : c ∈ before) : (c != separator) = true :=
    bne_iff_ne.2 fun same => plain (same ▸ member)
  rw [splitOnce, List.dropWhile_append_of_pos passed, List.takeWhile_append_of_pos passed]
  simp

theorem splitLast_of_notMem (plain : separator ∉ text) : splitLast separator text = none := by
  rw [splitLast, splitOnce_of_notMem (mt List.mem_reverse.1 plain)]
  rfl

theorem splitLast_append (before : List Char) (plain : separator ∉ after) :
    splitLast separator (before ++ separator :: after) = some (before, after) := by
  have reversed : (before ++ separator :: after).reverse =
      after.reverse ++ separator :: before.reverse := by simp
  rw [splitLast, reversed, splitOnce_append (mt List.mem_reverse.1 plain)]
  simp

/-- A text is without the character, or has a last occurrence of it. -/
theorem splitLast_cases (separator : Char) (text : List Char) :
    (separator ∉ text ∧ splitLast separator text = none) ∨ ∃ before after,
      text = before ++ separator :: after ∧ separator ∉ after ∧
        splitLast separator text = some (before, after) := by
  by_cases member : separator ∈ text
  · obtain ⟨after, before, reversed, last⟩ :=
      List.eq_append_cons_of_mem (List.mem_reverse.2 member)
    have whole : text = before.reverse ++ separator :: after.reverse := by
      rw [← List.reverse_reverse text, reversed]
      simp
    have plain : separator ∉ after.reverse := mt List.mem_reverse.1 last
    exact .inr ⟨_, _, whole, plain, whole ▸ splitLast_append _ plain⟩
  · exact .inl ⟨member, splitLast_of_notMem member⟩

end Text
end DebugBridge
