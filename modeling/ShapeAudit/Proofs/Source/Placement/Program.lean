import ShapeAudit.Proofs.Source.Lookahead
import ShapeAudit.Proofs.Source.Placement.Jsx
import ShapeAudit.Proofs.Source.Placement.Statement

/-!
# Programs wherever they stand

The constructs of the grammar contain one another, down to a depth; so every
construct is read behind a lead as it is read without it, by induction on the
depth, and so are the statements of a program, one after the other.  Every one of
them takes some of the text, so the bound on their number does not matter.
-/

namespace ShapeAudit.Source.Grammar

open ShapeAudit.Source.Tree (behind childrenBehind)
open Reading

variable {lead : List Char}

section Goals

variable {descend : Descend} (steady : ∀ goal, Steady lead (descend goal))

include steady

theorem decorated_steady (beforeWhile : Bool) : Steady lead (decorated descend beforeWhile) := by
  refine .bind (attempt_matches (.bind (decorators_steady steady) fun _ _ _ =>
    isNext_matches "export")) fun result other same => ?_
  rcases outcome_cases same with
    ⟨exports, later, _, otherLater, rfl, rfl, rfl, _⟩ | ⟨stopped, otherStopped, rfl, rfl, sameRest⟩
  · cases exports with
    | true =>
        exact exportStatement_steady steady
    | false =>
        refine .bind (classDeclaration?_matches steady _) fun found another sameFound => ?_
        rcases option_cases sameFound with ⟨rfl, rfl⟩ | ⟨children, others, rfl, rfl, sameChildren⟩
        · exact expressionStatement_steady steady
        · exact .pure sameChildren
  · exact .fail sameRest

theorem wordStatement_steady (beforeWhile : Bool) (found : String) :
    Steady lead (wordStatement descend beforeWhile found) := by
  unfold wordStatement
  split
  · exact ifStatement_steady steady _
  · exact switchStatement_steady steady
  · exact orElse_matches (forInStatement_steady steady _) (forStatement_steady steady _)
  · exact whileStatement_steady steady _
  · exact doStatement_steady steady
  · exact withStatement_steady steady _
  · exact tryStatement_steady steady
  · exact jump_steady _ _
  · exact jump_steady _ _
  · exact returnStatement_steady steady
  · exact throwStatement_steady steady
  · exact debuggerStatement_steady
  · exact .andThen (beyondWord_matches _ _) fun _ =>
      .ite (expressionStatement_steady steady) (importStatement_steady steady)
  · exact .andThen isExport_matches fun _ =>
      .ite (exportStatement_steady steady) (labelOrExpression_steady steady _ _)
  · refine .bind (declaration?_matches steady _) fun declared other sameDeclared => ?_
    rcases option_cases sameDeclared with ⟨rfl, rfl⟩ | ⟨children, others, rfl, rfl, sameChildren⟩
    · exact labelOrExpression_steady steady _ _
    · exact .pure sameChildren

theorem statement_steady (beforeWhile : Bool) : Steady lead (statement descend beforeWhile) := by
  refine .andThen ahead_matches fun chars => ?_
  cases chars with
  | nil =>
      exact stop_matches _ _
  | cons c rest =>
      exact .ite (takeLeaf_steady _ _) <|
        .ite (blockOrObject_steady steady _ _ (expressionStatement_steady steady)) <|
        .ite (decorated_steady steady _) <|
        .andThen nextWord_matches fun _ => wordStatement_steady steady _ _

end Goals

/-- Whatever the goal and the depth, the same is read wherever a text stands. -/
theorem reach_steady (depth : Nat) (goal : Goal) : Steady lead (reach depth goal) := by
  induction depth generalizing goal with
  | zero =>
      exact stop_matches _ _
  | succ depth inductionHypothesis =>
      have ends : ∀ goal, goal.isSingle = true → Yields EndsInNode (reach depth goal) :=
        fun _ => reach_ends depth
      cases goal with
      | statement beforeWhile =>
          exact statement_steady inductionHypothesis beforeWhile
      | expressions context =>
          exact expressions_steady inductionHypothesis ends context
      | expression level context =>
          exact expression_steady inductionHypothesis ends level context
      | operand updates context =>
          exact operand_steady inductionHypothesis ends updates context
      | constructed context =>
          exact constructed_steady inductionHypothesis ends context
      | literal =>
          exact .andThen (isNext_matches _) fun _ =>
            .ite (arrayLiteral_steady inductionHypothesis)
              (objectLiteral_steady inductionHypothesis)
      | jsxElement =>
          exact jsxElement_steady inductionHypothesis

/-! ## The statements of a program -/

theorem since_matches
    {α β : Type} {related : α → β → Prop} {first : Reading α} {second : Reading β}
    (both : Corresponds lead related first second) (start other : Cursor) :
    Corresponds lead related (fun here => (first here).mapError (Stop.since start))
      (fun here => (second here).mapError (Stop.since other)) := by
  intro cursor another stands
  rcases outcome_cases (both cursor another stands) with
    ⟨_, _, _, _, firstRead, secondRead, isRelated, laterStands⟩ |
      ⟨_, _, firstRead, secondRead, sameRest⟩
  · dsimp only
    rw [firstRead, secondRead]
    exact .read isRelated laterStands
  · dsimp only
    rw [firstRead, secondRead]
    exact .stopped sameRest

theorem nextStatement_matches :
    Matches lead (Option.map (childrenBehind lead)) nextStatement nextStatement := by
  refine .andThen ahead_matches fun _ =>
    .bind cursor_matches fun start otherStart sameStart => ?_
  rw [sameStart.rest]
  refine .ite (.pure rfl) (.bind comments_matches fun _ _ sameBefore =>
    .bind (since_matches (reach_steady _ _) start otherStart) fun _ _ sameStatement =>
    .bind cursor_matches fun later otherLater sameLater => ?_)
  rw [sameLater.rest]
  exact .andThen (require_matches rfl _) fun _ => .pure (by simp [sameBefore, sameStatement])

/-- The comments that have been passed, as children. -/
def passedComments (cursor : Cursor) : List Child :=
  cursor.passed.reverse.map fun tree => (none, tree)

/-- The cursor at the next token, once the comments before it have been taken. -/
def poised (cursor : Cursor) : Cursor :=
  { look .free cursor with passed := [] }

theorem nextStatement_eq (cursor : Cursor) :
    nextStatement cursor =
      if (look .free cursor).rest.isEmpty then .ok (none, look .free cursor)
      else
        match reach (8 * (look .free cursor).rest.length + 8) (.statement false)
            (poised cursor) with
        | .error stopped => .error (stopped.since (look .free cursor))
        | .ok (statement, later) =>
          if later.rest.length < (look .free cursor).rest.length then
            .ok (some (passedComments (look .free cursor) ++ statement), later)
          else .error (.here later .statement) := by
  have looked : ahead cursor = .ok (if (look .free cursor).mark = .token then
      (look .free cursor).rest else [], look .free cursor) := by
    rfl
  have stays : Reading.cursor (look .free cursor) =
      .ok (look .free cursor, look .free cursor) := by
    rfl
  have taken : comments (look .free cursor) =
      .ok (passedComments (look .free cursor), poised cursor) := by
    rfl
  rw [nextStatement, bind_of_ok looked, bind_of_ok stays]
  cases (look .free cursor).rest.isEmpty with
  | true =>
      rfl
  | false =>
      refine (bind_of_ok taken).trans ?_
      cases read : reach (8 * (look .free cursor).rest.length + 8) (.statement false)
          (poised cursor) with
      | error stopped =>
          apply bind_of_error
          rw [read]
          rfl
      | ok pair =>
          obtain ⟨statement, later⟩ := pair
          have statementRead :
              (reach (8 * (look .free cursor).rest.length + 8) (.statement false)
                  (poised cursor)).mapError (Stop.since (look .free cursor)) =
                .ok (statement, later) := by
            rw [read]
            rfl
          refine (bind_of_ok statementRead).trans ?_
          by_cases takes : later.rest.length < (look .free cursor).rest.length
          · simp [bind_apply, Reading.cursor, require, pure_apply, takes]
          · simp [bind_apply, Reading.cursor, require, stop, takes]

/-- Every statement takes some of the text. -/
theorem nextStatement_takes
    {cursor later : Cursor} {children : List Child}
    (read : nextStatement cursor = .ok (some children, later)) :
    later.rest.length < cursor.rest.length := by
  have shorter := look_free_length_le cursor
  rw [nextStatement_eq] at read
  split at read
  · cases read
  · split at read
    · cases read
    · split at read
      · cases read
        omega
      · cases read

/-- Where every round takes some of the text, any two bounds beyond its length
give the same. -/
theorem many_enough
    {reading : Reading (Option (List Child))}
    (takes : ∀ cursor children later, reading cursor = .ok (some children, later) →
      later.rest.length < cursor.rest.length)
    {fuel other : Nat} {cursor : Cursor}
    (enough : cursor.rest.length < fuel) (otherEnough : cursor.rest.length < other) :
    many reading fuel cursor = many reading other cursor := by
  induction fuel generalizing other cursor with
  | zero =>
      exact absurd enough (Nat.not_lt_zero _)
  | succ fuel inductionHypothesis =>
      cases other with
      | zero =>
          exact absurd otherEnough (Nat.not_lt_zero _)
      | succ other =>
          rw [many, many, bind_apply, bind_apply]
          cases read : reading cursor with
          | error stopped =>
              rfl
          | ok pair =>
              obtain ⟨found, later⟩ := pair
              cases found with
              | none =>
                  rfl
              | some children =>
                  have shorter := takes cursor children later read
                  have sameRest : many reading fuel later = many reading other later :=
                    inductionHypothesis (by omega) (by omega)
                  simp [bind_apply, sameRest]

/-! ## Statements behind comments -/

section Poised

variable {cursor : Cursor} (unseen : cursor.mark = .unseen)

include unseen

theorem poised_mark : (poised cursor).mark = .token := by
  rw [poised, look, if_pos unseen]
  exact lookFrom_free_mark _ cursor

theorem look_poised : look .free (poised cursor) = poised cursor := by
  simp [look, poised_mark unseen]

theorem nextStatement_poised :
    nextStatement (poised cursor) =
      if (look .free cursor).rest.isEmpty then .ok (none, poised cursor)
      else
        match reach (8 * (look .free cursor).rest.length + 8) (.statement false)
            (poised cursor) with
        | .error stopped => .error (stopped.since (poised cursor))
        | .ok (statement, later) =>
          if later.rest.length < (look .free cursor).rest.length then
            .ok (some statement, later)
          else .error (.here later .statement) := by
  have twice : poised (poised cursor) = poised cursor := by
    rw [poised, look_poised unseen]
    rfl
  rw [nextStatement_eq, twice, look_poised unseen]
  rfl

/-- The comments before a statement come before it as children. -/
theorem nextStatement_of_some
    {later : Cursor} {children : List Child}
    (read : nextStatement (poised cursor) = .ok (some children, later)) :
    nextStatement cursor =
      .ok (some (passedComments (look .free cursor) ++ children), later) := by
  rw [nextStatement_poised unseen] at read
  rw [nextStatement_eq]
  split at read
  · cases read
  · rename_i notEnded
    rw [if_neg notEnded]
    split at read
    · cases read
    · split at read
      · rename_i takes
        cases read
        simp only [takes, if_true]
      · cases read

theorem nextStatement_of_none
    {later : Cursor} (read : nextStatement (poised cursor) = .ok (none, later)) :
    later = poised cursor ∧ nextStatement cursor = .ok (none, look .free cursor) := by
  rw [nextStatement_poised unseen] at read
  rw [nextStatement_eq]
  split at read
  · rename_i ended
    cases read
    exact ⟨rfl, if_pos ended⟩
  · split at read
    · cases read
    · split at read
      · cases read
      · cases read

theorem nextStatement_of_error
    {stopped : Stop} (stops : nextStatement (poised cursor) = .error stopped) :
    ∃ another, nextStatement cursor = .error another := by
  rw [nextStatement_poised unseen] at stops
  rw [nextStatement_eq]
  split at stops
  · cases stops
  · rename_i notEnded
    rw [if_neg notEnded]
    split at stops
    · exact ⟨_, rfl⟩
    · rename_i statement later read
      split at stops
      · cases stops
      · rename_i takesNothing
        rw [if_neg takesNothing]
        exact ⟨_, rfl⟩

end Poised

end ShapeAudit.Source.Grammar
