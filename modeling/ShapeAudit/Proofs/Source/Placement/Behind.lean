import Mathlib.Algebra.GroupWithZero.Nat
import Mathlib.Data.List.Induction
import ShapeAudit.Proofs.Source.Outline
import ShapeAudit.Source.Cursor

/-!
# Places behind a text

What stands in a source stands elsewhere once a text is put before it: all lines
are further down, and on the first line all columns are further right.  Reading
on and standing behind a text go together: the place after a character, behind a
text, is the place after this character in the longer source.
-/

namespace ShapeAudit.Source

/-! ## Places -/

namespace Place

/-- The number of octets in the last line of a text. -/
def lastWidth (lead : List Char) : Nat :=
  ((lead.reverse.takeWhile (· ≠ '\n')).map Text.width).sum

/-- A place of a source once a text stands before the source. -/
def behind (lead : List Char) (place : Place) : Place :=
  ⟨place.line + lead.count '\n',
    if place.line = 1 then place.column + lastWidth lead else place.column⟩

theorem behind_first (lead : List Char) (column : Nat) :
    (⟨1, column⟩ : Place).behind lead = ⟨1 + lead.count '\n', column + lastWidth lead⟩ := by
  simp [behind]

theorem behind_later {place : Place} (notFirst : place.line ≠ 1) (lead : List Char) :
    place.behind lead = ⟨place.line + lead.count '\n', place.column⟩ := by
  simp [behind, notFirst]

/-- The last line of a text grows by a character, unless a line break ends it. -/
theorem lastWidth_snoc (lead : List Char) (c : Char) :
    lastWidth (lead ++ [c]) = if c = '\n' then 0 else lastWidth lead + Text.width c := by
  by_cases isBreak : c = '\n'
  · simp [lastWidth, isBreak]
  · simp [lastWidth, isBreak, Nat.add_comm]

theorem lastWidth_pos
    {lead : List Char} (someText : lead ≠ []) (oneLine : '\n' ∉ lead) : 0 < lastWidth lead := by
  obtain ⟨before, c, rfl⟩ := List.eq_nil_or_concat lead |>.resolve_left someText
  have notBreak : c ≠ '\n' := by
    rintro rfl
    exact oneLine (by simp)
  have positive : 0 < Text.width c := by
    simp only [Text.width]
    split_ifs <;> decide
  rw [List.concat_eq_append, lastWidth_snoc, if_neg notBreak]
  omega

/-- A text before a source moves what stands on its first line, whatever the
text, and what stands on the others if the text has a line break. -/
theorem behind_eq_self_iff (lead : List Char) (place : Place) :
    place.behind lead = place ↔ '\n' ∉ lead ∧ (place.line = 1 → lead = []) := by
  obtain ⟨line, column⟩ := place
  by_cases isFirst : line = 1
  · subst isFirst
    rw [behind_first]
    constructor
    · intro stays
      obtain ⟨sameLine, sameColumn⟩ := Place.mk.inj stays
      have oneLine : '\n' ∉ lead := by
        rw [← List.count_eq_zero]
        omega
      have noText : lead = [] := by
        apply Decidable.byContradiction
        intro someText
        have wide := lastWidth_pos someText oneLine
        omega
      exact ⟨oneLine, fun _ => noText⟩
    · rintro ⟨-, noText⟩
      rw [noText rfl]
      rfl
  · rw [behind_later isFirst]
    simp [isFirst, List.count_eq_zero]

end Place

open Cursor (placeAfter)

theorem line_placeAfter {place : Place} (placed : 1 ≤ place.line) (c : Char) :
    1 ≤ (placeAfter place c).line := by
  unfold placeAfter
  split
  · exact Nat.le_add_left 1 place.line
  · exact placed

/-- Reading past a character behind a text. -/
theorem placeAfter_behind
    {place : Place} (placed : 1 ≤ place.line) (lead : List Char) (c : Char) :
    placeAfter (place.behind lead) c = (placeAfter place c).behind lead := by
  obtain ⟨line, column⟩ := place
  by_cases isBreak : c = '\n'
  · have notFirst : line + 1 ≠ 1 := by
      simpa using Nat.one_le_iff_ne_zero.mp placed
    have behindBreak : (⟨line + 1, 1⟩ : Place).behind lead = ⟨line + 1 + lead.count '\n', 1⟩ :=
      Place.behind_later notFirst lead
    simp only [placeAfter, if_pos isBreak]
    rw [behindBreak]
    simp only [Place.behind, Place.mk.injEq, and_true]
    omega
  · simp only [placeAfter, if_neg isBreak, Place.behind]
    split
    · simp only [Place.mk.injEq, true_and]
      omega
    · rfl

/-- The beginning of a source is where the text before it ends. -/
theorem foldl_placeAfter (lead : List Char) :
    lead.foldl placeAfter ⟨1, 1⟩ = (⟨1, 1⟩ : Place).behind lead := by
  induction lead using List.reverseRecOn with
  | nil =>
      rfl
  | append_singleton lead c inductionHypothesis =>
      rw [List.foldl_append, inductionHypothesis, Place.behind_first, Place.behind_first,
        Place.lastWidth_snoc]
      by_cases isBreak : c = '\n'
      · simp [placeAfter, isBreak, List.count_append, Nat.add_assoc]
      · simp [placeAfter, isBreak, List.count_append, Nat.add_assoc]

theorem place_advance (count : Nat) (cursor : Cursor) :
    (cursor.advance count).place = (cursor.rest.take count).foldl placeAfter cursor.place := by
  induction count generalizing cursor with
  | zero =>
      rfl
  | succ count inductionHypothesis =>
      obtain ⟨rest, place, passed, mark, taken⟩ := cursor
      cases rest with
      | nil =>
          rfl
      | cons c rest =>
          exact inductionHypothesis _

/-! ## Trees -/

namespace Tree

mutual

/-- A tree of a source once a text stands before the source. -/
def behind (lead : List Char) : Tree → Tree
  | .token spelling => .token spelling
  | .leaf kind place spelling => .leaf kind (place.behind lead) spelling
  | .branch kind place children => .branch kind (place.behind lead) (childrenBehind lead children)

/-- Children in a source once a text stands before the source. -/
def childrenBehind (lead : List Char) :
    List (Option String × Tree) → List (Option String × Tree)
  | [] => []
  | (field, child) :: rest => (field, behind lead child) :: childrenBehind lead rest

end

mutual

theorem spelling_behind (lead : List Char) :
    ∀ tree : Tree, (tree.behind lead).spelling = tree.spelling
  | .token _ => rfl
  | .leaf _ _ _ => rfl
  | .branch _ _ children => by
      rw [behind, spelling, spelling, spellingOf_childrenBehind lead children]

theorem spellingOf_childrenBehind (lead : List Char) :
    ∀ children : List (Option String × Tree),
      spellingOf (childrenBehind lead children) = spellingOf children
  | [] => rfl
  | (field, child) :: rest => by
      rw [childrenBehind, spellingOf, spellingOf, spelling_behind lead child,
        spellingOf_childrenBehind lead rest]

end

mutual

/-- Without places, a tree is the same wherever it stands. -/
theorem unplaced_behind (lead : List Char) :
    ∀ tree : Tree, (tree.behind lead).unplaced = tree.unplaced
  | .token _ => rfl
  | .leaf _ _ _ => rfl
  | .branch _ _ children => by
      rw [behind, unplaced, unplaced, unplacedChildren_childrenBehind lead children]

theorem unplacedChildren_childrenBehind (lead : List Char) :
    ∀ children : List (Option String × Tree),
      unplacedChildren (childrenBehind lead children) = unplacedChildren children
  | [] => rfl
  | (field, child) :: rest => by
      rw [childrenBehind, unplacedChildren, unplacedChildren, unplaced_behind lead child,
        unplacedChildren_childrenBehind lead rest]

end

end Tree

end ShapeAudit.Source
