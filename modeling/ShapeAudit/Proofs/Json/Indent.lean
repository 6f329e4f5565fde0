import ShapeAudit.Json.Writer
import ShapeAudit.Proofs.Json.Numeral

/-!
# Moving a text in

A value that is spread over lines has line breaks only where a line of it ends:
quoted texts and numbers hold none.  So moving every line of its text in by one
level gives the text of the same value one level deeper.
-/

namespace ShapeAudit.Json

/-! ## Moving in -/

/-- Moves every line but the first one in by one level. -/
def moveIn (chars : List Char) : List Char :=
  chars.flatMap fun c => if c = '\n' then ['\n', ' ', ' '] else [c]

theorem moveIn_append (first second : List Char) :
    moveIn (first ++ second) = moveIn first ++ moveIn second :=
  List.flatMap_append

theorem moveIn_of_one_line {chars : List Char} (oneLine : '\n' ∉ chars) :
    moveIn chars = chars := by
  induction chars with
  | nil =>
      rfl
  | cons c rest inductionHypothesis =>
      rw [List.mem_cons, not_or] at oneLine
      have notBreak : c ≠ '\n' := Ne.symm oneLine.1
      have restMoved := inductionHypothesis oneLine.2
      unfold moveIn at restMoved ⊢
      rw [List.flatMap_cons, restMoved]
      simp [notBreak]

/-- Replacing line breaks moves a text in. -/
theorem toList_replace_lineBreak (text : String) :
    (Text.replace text "\n" "\n  ").toList = moveIn text.toList := by
  have replaced : ∀ chars : List Char,
      Text.replaceFrom ['\n'] ['\n', ' ', ' '] 0 chars = moveIn chars := by
    intro chars
    induction chars with
    | nil =>
        rfl
    | cons c rest inductionHypothesis =>
        by_cases isBreak : c = '\n'
        · subst isBreak
          simp [Text.replaceFrom, Text.afterPrefix?, inductionHypothesis, moveIn]
        · simp [Text.replaceFrom, Text.afterPrefix?, inductionHypothesis, moveIn, isBreak,
            Ne.symm isBreak]
  rw [Text.replace, String.toList_ofList]
  exact replaced text.toList

theorem moveIn_lineAt (depth : Nat) :
    moveIn (lineAt depth) = lineAt (depth + 1) := by
  have noBreak : '\n' ∉ List.replicate (2 * depth) ' ' := by
    intro isBlank
    exact absurd (List.eq_of_mem_replicate isBlank) (by decide)
  have blanks := moveIn_of_one_line noBreak
  unfold moveIn at blanks
  rw [lineAt, moveIn, List.flatMap_cons, blanks, lineAt, Nat.mul_add, Nat.add_comm,
    ← List.replicate_append_replicate]
  rfl

theorem visible_hexDigit :
    ∀ n < 16, 0x20 ≤ (Text.hexDigit n).toNat := by
  decide

/-- What stands between quotes holds no control character. -/
theorem visible_of_mem_escapeChar {c d : Char} (isMember : d ∈ escapeChar c) :
    0x20 ≤ d.toNat := by
  have letter : ∀ {x : Char}, 0x20 ≤ x.toNat → d ∈ ['\\', x] → 0x20 ≤ d.toNat := by
    intro x visible isEscape
    rcases List.mem_pair.mp isEscape with rfl | rfl
    · decide
    · exact visible
  simp only [escapeChar] at isMember
  repeat' split at isMember
  iterate 7 exact letter (by decide) isMember
  · have high := visible_hexDigit (c.toNat / 16) (by omega)
    have low := visible_hexDigit (c.toNat % 16) (by omega)
    simp only [List.mem_cons, List.not_mem_nil, or_false] at isMember
    rcases isMember with rfl | rfl | rfl | rfl | rfl | rfl
    iterate 4 decide
    · exact high
    · exact low
  · rename_i notControl
    rw [List.mem_singleton.mp isMember]
    exact Nat.le_of_not_lt notControl

theorem visible_of_mem_quote {value : String} {d : Char} (isMember : d ∈ quote value) :
    0x20 ≤ d.toNat := by
  simp only [quote, List.mem_cons, List.mem_append, List.mem_flatMap, List.not_mem_nil, or_false]
    at isMember
  rcases isMember with rfl | ⟨c, -, isEscape⟩ | rfl
  · decide
  · exact visible_of_mem_escapeChar isEscape
  · decide

theorem moveIn_quote (value : String) :
    moveIn (quote value) = quote value :=
  moveIn_of_one_line fun isBreak => absurd (visible_of_mem_quote isBreak) (by decide)

theorem moveIn_number (number : Number) :
    moveIn number.text.toList = number.text.toList := by
  apply moveIn_of_one_line
  intro isBreak
  exact absurd (isNumeric_of_mem_numberText isBreak) (by decide)

theorem moveIn_comma (first : Bool) :
    moveIn (if first then [] else [',']) = if first then [] else [','] := by
  cases first <;> rfl

mutual

/-- The text of a value moved in is its text one level deeper. -/
theorem moveIn_prettyChars :
    ∀ (depth : Nat) (value : Json),
      moveIn (prettyChars depth value) = prettyChars (depth + 1) value
  | _, null | _, bool true | _, bool false | _, array [] | _, object [] => rfl
  | _, number value => moveIn_number value
  | _, text value => moveIn_quote value
  | depth, array (item :: rest) => by
      have inside := moveIn_prettyItems (depth + 1) true (item :: rest)
      rw [prettyChars, prettyChars, ← List.singleton_append, moveIn_append, moveIn_append,
        moveIn_append, inside, moveIn_lineAt]
      rfl
  | depth, object (member :: rest) => by
      have inside := moveIn_prettyMembers (depth + 1) true (member :: rest)
      rw [prettyChars, prettyChars, ← List.singleton_append, moveIn_append, moveIn_append,
        moveIn_append, inside, moveIn_lineAt]
      rfl

theorem moveIn_prettyItems :
    ∀ (depth : Nat) (first : Bool) (items : List Json),
      moveIn (prettyItems depth first items) = prettyItems (depth + 1) first items
  | _, _, [] => rfl
  | depth, first, item :: rest => by
      rw [prettyItems, prettyItems, moveIn_append, moveIn_append, moveIn_append, moveIn_comma,
        moveIn_lineAt, moveIn_prettyChars depth item, moveIn_prettyItems depth false rest]

theorem moveIn_prettyMembers :
    ∀ (depth : Nat) (first : Bool) (members : List (String × Json)),
      moveIn (prettyMembers depth first members) = prettyMembers (depth + 1) first members
  | _, _, [] => rfl
  | depth, first, (name, value) :: rest => by
      have colon : moveIn (':' :: ' ' :: prettyChars depth value) =
          ':' :: ' ' :: prettyChars (depth + 1) value := by
        rw [← moveIn_prettyChars depth value]
        rfl
      rw [prettyMembers, prettyMembers, moveIn_append, moveIn_append, moveIn_append, moveIn_append,
        moveIn_comma, moveIn_lineAt, moveIn_quote, colon, moveIn_prettyMembers depth false rest]

end

/-- The spread text of a value, every line but the first one moved in. -/
theorem toList_replace_pretty (value : Json) :
    (Text.replace value.pretty "\n" "\n  ").toList = prettyChars 1 value := by
  rw [toList_replace_lineBreak, pretty, String.toList_ofList, moveIn_prettyChars]

end ShapeAudit.Json
