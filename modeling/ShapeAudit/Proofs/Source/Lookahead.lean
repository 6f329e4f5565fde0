import ShapeAudit.Proofs.Source.Directive

/-!
# Looking ahead over blanks and comments

Where neither an expression nor a statement has ended, looking ahead passes
comments, each with the blanks before it, and ends at a token.  It passes
nothing but comments and always moves on, so its bound does not matter; and
blanks of ASCII at the beginning make no difference to where it ends.
-/

namespace ShapeAudit.Source

open Cursor

/-! ## The next comment -/

/-- The comment that comes before the next token, if there is one: how many
characters precede it, its kind and its length. -/
def nextComment? (chars : List Char) : Option (Nat × Kind × Nat) :=
  match htmlComment? chars with
  | some (blanks, length) => some (blanks, .htmlComment, length)
  | none =>
    match Lexeme.comment (chars.drop (gapLength .free chars)) with
    | 0 => none
    | length => some (gapLength .free chars, .comment, length)

theorem lookFrom_free_succ (fuel : Nat) (cursor : Cursor) :
    lookFrom .free (fuel + 1) cursor =
      match nextComment? cursor.rest with
      | some (blanks, kind, length) =>
          lookFrom .free fuel ((cursor.advance blanks).passComment kind length)
      | none => { cursor.advance (gapLength .free cursor.rest) with mark := .token } := by
  have undecided : decideMark .free cursor = none := by
    rfl
  have movedRest := (cursor.advance_fields (gapLength .free cursor.rest)).1
  rw [lookFrom, undecided, nextComment?]
  dsimp only
  rw [movedRest]
  cases htmlComment? cursor.rest with
  | some comment =>
      rfl
  | none =>
      cases Lexeme.comment (cursor.rest.drop (gapLength .free cursor.rest)) with
      | zero =>
          rfl
      | succ length =>
          rfl

theorem isExtra_of_nextComment?
    {chars : List Char} {blanks length : Nat} {kind : Kind}
    (found : nextComment? chars = some (blanks, kind, length)) :
    kind.isExtra = true := by
  unfold nextComment? at found
  split at found
  · cases found
    rfl
  · split at found
    · cases found
    · cases found
      rfl

theorem htmlComment?_takes
    {chars : List Char} {blanks length : Nat}
    (found : htmlComment? chars = some (blanks, length)) :
    blanks < chars.length ∧ 0 < length := by
  simp only [htmlComment?] at found
  split at found
  · cases found
  · rename_i opens
    obtain ⟨rfl, rfl⟩ := Prod.mk.inj (Option.some.inj found)
    generalize behindEqual :
      chars.drop (Lexeme.run (fun c => isSpace c || isWideBreak c) chars) = behind at opens ⊢
    cases behind with
    | nil =>
        simp [Lexeme.piece, Text.afterPrefix?] at opens
    | cons c rest =>
        have someLeft :
            Lexeme.run (fun c => isSpace c || isWideBreak c) chars < chars.length := by
          have left := congrArg List.length behindEqual
          simp only [List.length_drop, List.length_cons] at left
          omega
        have isOpening : c = '<' ∨ c = '-' := by
          apply Decidable.byContradiction
          intro neither
          simp [Lexeme.piece, Text.afterPrefix?, not_or.mp neither, eq_comm] at opens
        have onLine : (!isNul c && !isBreak c) = true := by
          rcases isOpening with rfl | rfl <;> rfl
        refine ⟨someLeft, ?_⟩
        rw [Lexeme.run, if_pos onLine]
        omega

/-- A comment takes some of the text. -/
theorem length_drop_nextComment?
    {chars : List Char} {blanks length : Nat} {kind : Kind}
    (found : nextComment? chars = some (blanks, kind, length)) :
    ((chars.drop blanks).drop length).length < chars.length := by
  have takes : blanks < chars.length ∧ 0 < length := by
    unfold nextComment? at found
    split at found
    · rename_i htmlFound
      cases found
      exact htmlComment?_takes htmlFound
    · split at found
      · cases found
      · rename_i notZero
        cases found
        refine ⟨?_, Nat.pos_of_ne_zero notZero⟩
        rcases Nat.lt_or_ge (gapLength .free chars) chars.length with someLeft | noneLeft
        · exact someLeft
        · rw [List.drop_eq_nil_of_le noneLeft] at notZero
          exact absurd rfl notZero
  simp only [List.length_drop]
  omega

/-! ## Where looking ahead ends -/

theorem passComment_rest
    (cursor : Cursor) (blanks : Nat) (kind : Kind) (length : Nat) :
    ((cursor.advance blanks).passComment kind length).rest =
      (cursor.rest.drop blanks).drop length := by
  rw [← (cursor.advance_fields blanks).1]
  exact ((cursor.advance blanks).advance_fields length).1

/-- Any two bounds beyond the length of the text lead to the same place. -/
theorem lookFrom_free_enough
    {fuel other : Nat} {cursor : Cursor}
    (enough : cursor.rest.length < fuel) (otherEnough : cursor.rest.length < other) :
    lookFrom .free fuel cursor = lookFrom .free other cursor := by
  induction fuel generalizing other cursor with
  | zero =>
      exact absurd enough (Nat.not_lt_zero _)
  | succ fuel inductionHypothesis =>
      cases other with
      | zero =>
          exact absurd otherEnough (Nat.not_lt_zero _)
      | succ other =>
          rw [lookFrom_free_succ, lookFrom_free_succ]
          cases found : nextComment? cursor.rest with
          | none =>
              rfl
          | some comment =>
              obtain ⟨blanks, kind, length⟩ := comment
              have shorter := length_drop_nextComment? found
              rw [← passComment_rest cursor blanks kind length] at shorter
              exact inductionHypothesis (by omega) (by omega)

theorem lookFrom_free_mark (fuel : Nat) (cursor : Cursor) :
    (lookFrom .free fuel cursor).mark = .token := by
  induction fuel generalizing cursor with
  | zero =>
      rfl
  | succ fuel inductionHypothesis =>
      rw [lookFrom_free_succ]
      cases nextComment? cursor.rest with
      | none =>
          rfl
      | some comment =>
          exact inductionHypothesis _

theorem lookFrom_free_length_le (fuel : Nat) (cursor : Cursor) :
    (lookFrom .free fuel cursor).rest.length ≤ cursor.rest.length := by
  induction fuel generalizing cursor with
  | zero =>
      exact Nat.le_refl _
  | succ fuel inductionHypothesis =>
      rw [lookFrom_free_succ]
      cases found : nextComment? cursor.rest with
      | none =>
          simp [(cursor.advance_fields _).1]
      | some comment =>
          obtain ⟨blanks, kind, length⟩ := comment
          have shorter := length_drop_nextComment? found
          have further := inductionHypothesis ((cursor.advance blanks).passComment kind length)
          rw [passComment_rest] at further
          exact Nat.le_trans further (Nat.le_of_lt shorter)

/-- Nothing but comments is passed. -/
theorem lookFrom_free_passed
    {fuel : Nat} {cursor : Cursor} (comments : ∀ tree ∈ cursor.passed, tree.isExtra = true) :
    ∀ tree ∈ (lookFrom .free fuel cursor).passed, tree.isExtra = true := by
  induction fuel generalizing cursor with
  | zero =>
      exact comments
  | succ fuel inductionHypothesis =>
      rw [lookFrom_free_succ]
      cases found : nextComment? cursor.rest with
      | none =>
          simpa [(cursor.advance_fields _).2.2] using comments
      | some comment =>
          obtain ⟨blanks, kind, length⟩ := comment
          apply inductionHypothesis
          simpa [passComment, (cursor.advance_fields _).2.2, Tree.isExtra, Tree.kind?,
            isExtra_of_nextComment? found] using comments

theorem look_free_length_le (cursor : Cursor) :
    (look .free cursor).rest.length ≤ cursor.rest.length := by
  rw [look]
  split
  · exact lookFrom_free_length_le _ _
  · exact Nat.le_refl _

/-! ## Blanks at the beginning -/

theorem isWideBreak_of_isSpace {c : Char} (isBlank : isSpace c = true) :
    isWideBreak c = false := by
  simp only [isSpace, Bool.or_eq_true, Bool.and_eq_true, decide_eq_true_eq, beq_iff_eq] at isBlank
  simp only [isWideBreak, Bool.or_eq_false_iff, beq_eq_false_iff_ne]
  omega

theorem gapLength_space
    {blank : Char} (isBlank : isSpace blank = true) (chars : List Char) :
    gapLength .free (blank :: chars) = gapLength .free chars + 1 := by
  have isGap : Mode.free.isGap blank = true := by
    simp [Mode.isGap, isSeparator, isBlank, isWideBreak_of_isSpace isBlank]
  have longer :
      Lexeme.run Mode.free.isGap (blank :: chars) = Lexeme.run Mode.free.isGap chars + 1 := by
    rw [Lexeme.run, if_pos isGap, Nat.add_comm]
  simp only [gapLength, longer, List.drop_succ_cons]
  split
  · omega
  · rfl

theorem htmlComment?_space
    {blank : Char} (isBlank : isSpace blank = true) (chars : List Char) :
    htmlComment? (blank :: chars) =
      (htmlComment? chars).map fun comment => (comment.1 + 1, comment.2) := by
  have longer :
      Lexeme.run (fun c => isSpace c || isWideBreak c) (blank :: chars) =
        Lexeme.run (fun c => isSpace c || isWideBreak c) chars + 1 := by
    simp [Lexeme.run, isBlank, Nat.add_comm]
  simp only [htmlComment?, longer, List.drop_succ_cons]
  split
  · rfl
  · rfl

theorem nextComment?_space
    {blank : Char} (isBlank : isSpace blank = true) (chars : List Char) :
    nextComment? (blank :: chars) =
      (nextComment? chars).map fun comment => (comment.1 + 1, comment.2) := by
  rw [nextComment?, nextComment?, htmlComment?_space isBlank, gapLength_space isBlank,
    List.drop_succ_cons]
  cases htmlComment? chars with
  | some comment =>
      rfl
  | none =>
      cases Lexeme.comment (chars.drop (gapLength .free chars)) with
      | zero =>
          rfl
      | succ length =>
          rfl

theorem advance_add (first second : Nat) (cursor : Cursor) :
    cursor.advance (first + second) = (cursor.advance first).advance second := by
  induction first generalizing cursor with
  | zero =>
      rw [Nat.zero_add]
      cases second with
      | zero =>
          rfl
      | succ second =>
          rfl
  | succ first inductionHypothesis =>
      obtain ⟨rest, place, passed, mark, taken⟩ := cursor
      rw [Nat.succ_add]
      cases rest with
      | nil =>
          cases second with
          | zero =>
              rfl
          | succ second =>
              rfl
      | cons c rest =>
          exact inductionHypothesis _

/-- A blank of ASCII makes no difference to where looking ahead ends. -/
theorem look_space
    {cursor : Cursor} {blank : Char} {chars : List Char}
    (unseen : cursor.mark = .unseen) (rest_eq : cursor.rest = blank :: chars)
    (isBlank : isSpace blank = true) :
    look .free cursor = look .free (cursor.advance 1) := by
  obtain ⟨movedRest, movedMark, _⟩ := cursor.advance_fields 1
  have behindBlank : (cursor.advance 1).rest = chars := by
    rw [movedRest, rest_eq, List.drop_one, List.tail_cons]
  rw [look, look, if_pos unseen, if_pos movedMark, behindBlank, rest_eq, List.length_cons,
    lookFrom_free_succ, lookFrom_free_succ, behindBlank, rest_eq, nextComment?_space isBlank,
    gapLength_space isBlank]
  cases found : nextComment? chars with
  | none =>
      simp only [Option.map_none]
      rw [Nat.add_comm, advance_add]
  | some comment =>
      obtain ⟨blanks, kind, length⟩ := comment
      have shorter := length_drop_nextComment? found
      rw [← behindBlank, ← passComment_rest (cursor.advance 1) blanks kind length,
        behindBlank] at shorter
      simp only [Option.map_some]
      rw [Nat.add_comm blanks 1, advance_add]
      exact lookFrom_free_enough (by omega) (by omega)

theorem look_spaces
    {cursor : Cursor} {blanks chars : List Char}
    (unseen : cursor.mark = .unseen) (rest_eq : cursor.rest = blanks ++ chars)
    (areBlank : ∀ c ∈ blanks, isSpace c = true) :
    look .free cursor = look .free (cursor.advance blanks.length) := by
  induction blanks generalizing cursor with
  | nil =>
      have stays : cursor.advance 0 = cursor := by
        rw [Cursor.advance, ← unseen]
      rw [List.length_nil, stays]
  | cons blank blanks inductionHypothesis =>
      obtain ⟨movedRest, movedMark, _⟩ := cursor.advance_fields 1
      have behindBlank : (cursor.advance 1).rest = blanks ++ chars := by
        rw [movedRest, rest_eq, List.cons_append, List.drop_one, List.tail_cons]
      have first := look_space unseen rest_eq (areBlank blank (by simp))
      have others := inductionHypothesis movedMark behindBlank
        (fun c isBlank => areBlank c (by simp [isBlank]))
      rw [first, others, List.length_cons, Nat.add_comm, advance_add]

end ShapeAudit.Source
