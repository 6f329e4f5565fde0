import ShapeAudit.Proofs.Source.Placement.Expression
import ShapeAudit.Source.Parse

/-!
# Statements wherever they stand

Declarations, statements, imports and exports are read behind a lead as they are
read without it, as soon as the constructs in them are.
-/

namespace ShapeAudit.Source.Grammar

open ShapeAudit.Source.Tree (behind childrenBehind)
open Reading

variable {lead : List Char}

/-! ## Declarations -/

theorem isLetDeclaration_matches (inHead : Bool) :
    Matches lead id (isLetDeclaration inHead) (isLetDeclaration inHead) :=
  .andThen (beyondWord_matches _ _) fun _ => .pure rfl

theorem declared_matches
    (beforeWhile : Bool) (kind : Kind) (named : Bool) {children others : List Child}
    {start otherStart later otherLater : Cursor}
    (sameChildren : childrenBehind lead children = others)
    (sameStart : start.Behind lead otherStart) (sameLater : later.Behind lead otherLater) :
    Matches lead (Option.map (childrenBehind lead))
      (declared beforeWhile kind named children start later)
      (declared beforeWhile kind named others otherStart otherLater) := by
  unfold declared
  rw [sameLater.mark, sameLater.rest]
  refine .ite (.pure rfl) (.andThen (resume_matches sameLater) fun _ => .pure ?_)
  simp only [Option.map_some, childrenBehind_append, childrenBehind_comments,
    sameStart.passed, sameStart.place, childrenBehind_cons, childrenBehind_nil, behind_branch,
    sameChildren]

section Goals

variable {descend : Descend} (steady : ∀ goal, Steady lead (descend goal))

include steady

theorem expressionStatement_steady : Steady lead (expressionStatement descend) := by
  refine node_matches (inTurn_steady ?_) _
  simp [steady, ending_steady]

theorem declarator_steady (context : Context) : Steady lead (declarator descend context) := by
  have assigned :
      Steady lead (inTurn [takeToken 1, field "value" (descend (.expression 0 context))]) := by
    refine inTurn_steady ?_
    simp [takeToken_steady, field_matches (steady _)]
  refine node_matches ?_ _
  exact .bind (field_matches (binding_steady steady) _) fun _ _ sameName =>
    .andThen (peek_matches _) fun _ => .andThen (isHere_matches _) fun _ =>
    .bind (onlyIf_matches assigned _) fun _ _ sameValue => .pure (by simp [sameName, sameValue])

theorem declarators_steady : Steady lead (declarators descend) := by
  refine .bind (declarator_steady steady _) fun _ _ sameFirst =>
    .bind (repeated_matches (.andThen (isHere_matches _) fun _ => .ite ?_ (.pure rfl)))
      fun _ _ sameOthers => .pure (by simp [sameFirst, sameOthers])
  exact .bind (takeToken_steady _) fun _ _ sameComma =>
    .bind (declarator_steady steady _) fun _ _ sameNext => .pure (by simp [sameComma, sameNext])

theorem bindings_steady (keyword : String) : Steady lead (bindings descend keyword) := by
  refine .ite (node_matches (inTurn_steady ?_) _) (node_matches (inTurn_steady ?_) _)
  · simp [takeToken_steady, declarators_steady steady, ending_steady]
  · simp [field_matches (takeToken_steady _), declarators_steady steady, ending_steady]

theorem functionDeclaration?_matches (beforeWhile : Bool) :
    Matches lead (Option.map (childrenBehind lead)) (functionDeclaration? descend beforeWhile)
      (functionDeclaration? descend beforeWhile) := by
  refine .bind place_matches fun _ _ _ => .bind cursor_matches fun start otherStart sameStart =>
    .bind (attempt_matches (.bind comments_matches fun _ _ _ =>
      inside_matches (functionParts_matches steady) _)) fun result other same => ?_
  rcases outcome_cases same with
    ⟨parts, later, otherParts, otherLater, rfl, rfl, sameParts, sameLater⟩ |
      ⟨stopped, otherStopped, rfl, rfl, sameRest⟩
  · subst sameParts
    exact declared_matches _ _ _ rfl sameStart sameLater
  · exact .fail sameRest

theorem classDeclaration?_matches (beforeWhile : Bool) :
    Matches lead (Option.map (childrenBehind lead)) (classDeclaration? descend beforeWhile)
      (classDeclaration? descend beforeWhile) := by
  refine .bind place_matches fun _ _ _ => .bind cursor_matches fun start otherStart sameStart =>
    .bind (attempt_matches (.bind comments_matches fun _ _ _ =>
      .bind (inside_matches (classParts_matches steady) _) fun _ _ sameParts =>
      .andThen (afterBlock_matches _) fun _ => Corresponds.pure sameParts))
        fun result other same => ?_
  rcases outcome_cases same with
    ⟨parts, later, otherParts, otherLater, rfl, rfl, sameParts, sameLater⟩ |
      ⟨stopped, otherStopped, rfl, rfl, sameRest⟩
  · subst sameParts
    exact declared_matches _ _ _ rfl sameStart sameLater
  · exact .fail sameRest

theorem declarationFrom?_matches (beforeWhile : Bool) (keyword : String) :
    Matches lead (Option.map (childrenBehind lead)) (declarationFrom? descend beforeWhile keyword)
      (declarationFrom? descend beforeWhile keyword) := by
  unfold declarationFrom?
  split
  · exact some_matches (bindings_steady steady _)
  · exact some_matches (bindings_steady steady _)
  · exact .andThen (isLetDeclaration_matches _) fun _ =>
      .ite (some_matches (bindings_steady steady _)) (.pure rfl)
  · exact functionDeclaration?_matches steady _
  · exact .andThen (beyondWord_matches _ _) fun _ =>
      .ite (functionDeclaration?_matches steady _) (.pure rfl)
  · exact classDeclaration?_matches steady _
  · exact .pure rfl

theorem declaration?_matches (beforeWhile : Bool) :
    Matches lead (Option.map (childrenBehind lead)) (declaration? descend beforeWhile)
      (declaration? descend beforeWhile) :=
  .andThen (isNext_matches _) fun _ => .ite (classDeclaration?_matches steady _) <|
    .andThen nextWord_matches fun _ => declarationFrom?_matches steady _ _

/-! ## Loops and branches -/

theorem governed_steady (beforeWhile : Bool) : Steady lead (governed descend beforeWhile) :=
  field_matches (steady _) _

theorem ifStatement_steady (beforeWhile : Bool) :
    Steady lead (ifStatement descend beforeWhile) := by
  have otherwise : Steady lead (node .elseClause
      (inTurn [takeToken 4, descend (.statement beforeWhile)])) := by
    refine node_matches (inTurn_steady ?_) _
    simp [takeToken_steady, steady]
  refine node_matches ?_ _
  exact .bind (takeToken_steady _) fun _ _ sameKeyword =>
    .bind (field_matches (condition_steady steady) _) fun _ _ sameTest =>
    .bind (field_matches (steady _) _) fun _ _ sameConsequence =>
    .andThen (isWord_matches _) fun _ =>
    .bind (onlyIf_matches (field_matches otherwise _) _) fun _ _ sameAlternative =>
      .pure (by simp [sameKeyword, sameTest, sameConsequence, sameAlternative])

theorem caseBody_steady : Steady lead (caseBody descend) :=
  field_matches (repeated_matches <| .andThen nextWord_matches fun _ =>
    .andThen (isNext_matches _) fun _ => .ite (.pure rfl) (some_matches (steady _))) _

theorem switchCase_matches :
    Matches lead (Option.map (childrenBehind lead)) (switchCase descend) (switchCase descend) := by
  refine .andThen (isNext_matches _) fun _ => .ite
    (some_matches (node_matches (inTurn_steady ?_) _)) (.andThen (isNext_matches _) fun _ => .ite
      (some_matches (node_matches (inTurn_steady ?_) _)) (.pure rfl))
  · simp [takeToken_steady, field_matches (steady _), token_steady, caseBody_steady steady]
  · simp [takeToken_steady, token_steady, caseBody_steady steady]

theorem switchStatement_steady : Steady lead (switchStatement descend) := by
  have body : Steady lead (node .switchBody
      (inTurn [token "\x7b", repeated (switchCase descend), token "\x7d"])) := by
    refine node_matches (inTurn_steady ?_) _
    simp [token_steady, repeated_matches (switchCase_matches steady)]
  refine node_matches (inTurn_steady ?_) _
  simp [takeToken_steady, field_matches (condition_steady steady), field_matches body]

omit steady in
theorem isLoopOperator_matches : Matches lead id isLoopOperator isLoopOperator :=
  .andThen (isHere_matches _) fun _ => .andThen (isHere_matches _) fun _ =>
    .andThen (isHere_matches _) fun _ => .pure rfl

theorem loopPattern?_matches :
    Matches lead (Option.map (childrenBehind lead)) (loopPattern? descend)
      (loopPattern? descend) := by
  refine .andThen (isNext_matches _) fun _ => .ite ?_ (.pure rfl)
  have head : Matches lead (Prod.map (childrenBehind lead) id)
      (do
        let target ← asTarget (descend .literal)
        let _ ← ahead
        return (target, ← isLoopOperator))
      (do
        let target ← asTarget (descend .literal)
        let _ ← ahead
        return (target, ← isLoopOperator)) :=
    .bind (asTarget_matches (steady _)) fun _ _ sameTarget => .andThen ahead_matches fun _ =>
      .andThen isLoopOperator_matches fun _ => .pure (by simp [sameTarget])
  refine .bind (attempt_matches head) fun result other same => ?_
  rcases outcome_cases same with
    ⟨⟨target, follows⟩, later, ⟨otherTarget, otherFollows⟩, otherLater, rfl, rfl, sameHead,
      sameLater⟩ | ⟨_, _, rfl, rfl, _⟩
  · obtain ⟨sameTarget, rfl⟩ := Prod.mk.inj sameHead
    cases follows with
    | true =>
        exact .andThen (resume_matches sameLater) fun _ => .pure (by simp [sameTarget])
    | false =>
        exact .pure rfl
  · exact .pure rfl

theorem loopTarget_steady : Steady lead (loopTarget descend) := by
  refine .andThen nextWord_matches fun found => ?_
  have assigned (context : Context) : Steady lead (inTurn [takeToken 1,
      field "value" (descend (.expression 0 context))]) := by
    refine inTurn_steady ?_
    simp [takeToken_steady, field_matches (steady _)]
  split
  · exact .bind (field_matches (takeToken_steady _) _) fun _ _ sameKeyword =>
      .bind (field_matches (binding_steady steady) _) fun _ _ sameName =>
      .andThen (peek_matches _) fun _ => .andThen (isHere_matches _) fun _ =>
      .bind (onlyIf_matches (assigned _) _) fun _ _ sameValue =>
        .pure (by simp [sameKeyword, sameName, sameValue])
  · refine .andThen (isLetDeclaration_matches _) fun _ => .ite ?_ ?_
    · exact .bind (field_matches (takeToken_steady _) _) fun _ _ sameKeyword =>
        .bind (field_matches (binding_steady steady) _) fun _ _ sameName =>
        .andThen (peek_matches _) fun _ => .pure (by simp [sameKeyword, sameName])
    · refine .bind (loopPattern?_matches steady) fun pattern otherPattern samePattern => ?_
      rcases option_cases samePattern with
        ⟨rfl, rfl⟩ | ⟨children, otherChildren, rfl, rfl, sameChildren⟩
      · refine .bind cursor_matches fun start otherStart sameStart =>
          .bind (steady _) fun operand otherOperand sameOperand => ?_
        obtain ⟨before, tree, otherBefore, otherTree, splits, otherSplits, sameBefore, sameTree⟩ :=
          splitLast_cases sameOperand
        simp only [splits, otherSplits]
        refine .andThen (peek_matches _) fun _ => ?_
        rcases option_cases (toTarget?_alike sameTree) with
          ⟨missing, otherMissing⟩ | ⟨target, otherTarget, found, otherFound, sameTarget⟩
        · simp only [missing, otherMissing]
          exact .fail sameStart.rest
        · simp only [found, otherFound]
          exact .pure (by simp [sameBefore, sameTarget])
      · exact .pure sameChildren

theorem forInStatement_steady (beforeWhile : Bool) :
    Steady lead (forInStatement descend beforeWhile) := by
  refine node_matches ?_ _
  exact .bind (takeToken_steady _) fun _ _ sameKeyword =>
    .bind (optional_steady _) fun _ _ sameWaiting =>
    .bind (token_steady _) fun _ _ sameOpening =>
    .bind (loopTarget_steady steady) fun _ _ sameLeft =>
    .bind (field_matches (.andThen isLoopOperator_matches fun _ =>
      .ite (takeToken_steady _) (stop_matches _ _)) _) fun _ _ sameOperator =>
    .bind (field_matches (steady _) _) fun _ _ sameRight =>
    .bind (token_steady _) fun _ _ sameClosing =>
    .bind (governed_steady steady _) fun _ _ sameBody => .pure (by
      simp [sameKeyword, sameWaiting, sameOpening, sameLeft, sameOperator, sameRight, sameClosing,
        sameBody])

theorem headStatement_steady (declares : Bool) : Steady lead (headStatement descend declares) :=
  .andThen (isNext_matches _) fun _ => .ite (takeLeaf_steady _ _) <|
    .andThen nextWord_matches fun _ => .andThen (isLetDeclaration_matches _) fun _ =>
      .ite (bindings_steady steady _) (expressionStatement_steady steady)

theorem forStatement_steady (beforeWhile : Bool) :
    Steady lead (forStatement descend beforeWhile) := by
  refine node_matches ?_ _
  exact .bind (takeToken_steady _) fun _ _ sameKeyword =>
    .bind (token_steady _) fun _ _ sameOpening =>
    .bind (field_matches (headStatement_steady steady _) _) fun _ _ sameFirst =>
    .bind (field_matches (headStatement_steady steady _) _) fun _ _ sameSecond =>
    .andThen (isNext_matches _) fun _ =>
    .bind (onlyIf_matches (field_matches (steady _) _) _) fun _ _ sameThird =>
    .bind (token_steady _) fun _ _ sameClosing =>
    .bind (governed_steady steady _) fun _ _ sameBody => .pure (by
      simp [sameKeyword, sameOpening, sameFirst, sameSecond, sameThird, sameClosing, sameBody])

theorem whileStatement_steady (beforeWhile : Bool) :
    Steady lead (whileStatement descend beforeWhile) := by
  refine node_matches (inTurn_steady ?_) _
  simp [takeToken_steady, field_matches (condition_steady steady), governed_steady steady]

theorem doStatement_steady : Steady lead (doStatement descend) := by
  refine node_matches (.bind (inTurn_steady ?_) fun head otherHead sameHead => ?_) _
  · simp [takeToken_steady, governed_steady steady, token_steady,
      field_matches (condition_steady steady)]
  · refine .andThen (peek_matches _) fun mark => ?_
    have written : Matches lead (childrenBehind lead)
        (isHere ";" >>= fun found =>
          if found then takeToken 1 >>= fun sign => pure (head ++ sign) else pure head)
        (isHere ";" >>= fun found =>
          if found then takeToken 1 >>= fun sign => pure (otherHead ++ sign)
          else pure otherHead) :=
      .andThen (isHere_matches _) fun _ => .ite
        (.bind (takeToken_steady _) fun _ _ sameSign => .pure (by simp [sameHead, sameSign]))
        (.pure sameHead)
    cases mark with
    | unseen =>
        exact written
    | token =>
        exact written
    | semicolon =>
        exact .andThen consumeMark_matches fun _ => .pure sameHead
    | question =>
        exact written

theorem withStatement_steady (beforeWhile : Bool) :
    Steady lead (withStatement descend beforeWhile) := by
  refine node_matches (inTurn_steady ?_) _
  simp [takeToken_steady, field_matches (condition_steady steady), governed_steady steady]

theorem tryStatement_steady : Steady lead (tryStatement descend) := by
  have body (length : Nat) :
      Steady lead (inTurn [takeToken length, field "body" (block descend .close)]) := by
    refine inTurn_steady ?_
    simp [takeToken_steady, field_matches (block_steady steady _)]
  have bound :
      Steady lead (inTurn [token "(", field "parameter" (binding descend), token ")"]) := by
    refine inTurn_steady ?_
    simp [token_steady, field_matches (binding_steady steady)]
  refine node_matches ?_ _
  refine .bind (body 3) fun _ _ sameBody => .andThen (isWord_matches _) fun _ =>
    .bind (onlyIf_matches (field_matches (node_matches ?_ _) _) _) fun _ _ sameHandler =>
    .andThen (isWord_matches _) fun _ =>
    .bind (onlyIf_matches (field_matches (node_matches (body 7) _) _) _) fun _ _ sameFinalizer =>
      .pure (by simp [sameBody, sameHandler, sameFinalizer])
  exact .bind (takeToken_steady _) fun _ _ sameKeyword => .andThen (isNext_matches _) fun _ =>
    .bind (onlyIf_matches bound _) fun _ _ sameCaught =>
    .bind (field_matches (block_steady steady _) _) fun _ _ sameBlock =>
      .pure (by simp [sameKeyword, sameCaught, sameBlock])

/-! ## Jumps and labels -/

omit steady in
theorem jump_steady (kind : Kind) (keyword : String) : Steady lead (jump kind keyword) := by
  refine node_matches ?_ _
  exact .bind (takeToken_steady _) fun _ _ sameHead => .andThen (peek_matches _) fun _ =>
    .andThen here_matches fun _ =>
    .bind (onlyIf_matches (field_matches (word_steady _) _) _) fun _ _ sameTarget =>
    .bind (ending_steady _) fun _ _ sameEnd => .pure (by simp [sameHead, sameTarget, sameEnd])

theorem returnStatement_steady : Steady lead (returnStatement descend) := by
  refine node_matches ?_ _
  refine .bind (takeToken_steady _) fun _ _ sameKeyword => .andThen (peek_matches _) fun _ =>
    .andThen (isHere_matches _) fun _ => .ite ?_ ?_
  · exact .bind (ending_steady _) fun _ _ sameEnd => .pure (by simp [sameKeyword, sameEnd])
  · exact .bind (steady _) fun _ _ sameValue => .bind (ending_steady _) fun _ _ sameEnd =>
      .pure (by simp [sameKeyword, sameValue, sameEnd])

theorem throwStatement_steady : Steady lead (throwStatement descend) := by
  refine node_matches (inTurn_steady ?_) _
  simp [takeToken_steady, steady, ending_steady]

omit steady in
theorem debuggerStatement_steady : Steady lead debuggerStatement := by
  refine node_matches (inTurn_steady ?_) _
  simp [takeToken_steady, ending_steady]

theorem labelOrExpression_steady (beforeWhile : Bool) (found : String) :
    Steady lead (labelOrExpression descend beforeWhile found) := by
  refine .ite (expressionStatement_steady steady) <| .andThen (beyondWord_matches _ _) fun _ =>
    .ite (node_matches ?_ _) (expressionStatement_steady steady)
  exact .bind (field_matches (word_steady _) _) fun _ _ sameName =>
    .andThen (peek_matches _) fun _ => .bind (token_steady _) fun _ _ sameColon =>
    .bind (governed_steady steady _) fun _ _ sameBody =>
      .pure (by simp [sameName, sameColon, sameBody])

end Goals

/-! ## Imports -/

theorem specifiers_steady
    {specifier : Reading (List Child)} (steady : Steady lead specifier) :
    Steady lead (specifiers specifier) := by
  refine .bind (token_steady _) fun _ _ sameOpening => .andThen (isNext_matches _) fun _ =>
    .ite ?_ ?_
  · exact .bind (token_steady _) fun _ _ sameComma => .bind (token_steady _) fun _ _ sameClosing =>
      .pure (by simp [sameOpening, sameComma, sameClosing])
  · exact .bind (listed_matches steady _ _) fun _ _ sameItems =>
      .pure (by simp [sameOpening, sameItems])

theorem exportedName_steady : Steady lead exportedName :=
  .andThen ahead_matches fun _ => .ite string_steady (word_steady _)

theorem fromClause_steady : Steady lead fromClause := by
  refine inTurn_steady ?_
  simp [token_steady, field_matches string_steady]

theorem namespaceImport_steady : Steady lead namespaceImport := by
  refine node_matches (inTurn_steady ?_) _
  simp [token_steady, word_steady]

theorem importSpecifier_steady : Steady lead importSpecifier := by
  refine node_matches ?_ _
  refine .andThen ahead_matches fun _ =>
    .bind (field_matches exportedName_steady _) fun _ _ sameName =>
    .andThen (isNext_matches _) fun _ => .ite ?_ (.pure sameName)
  exact .bind (token_steady _) fun _ _ sameWord =>
    .bind (field_matches (word_steady _) _) fun _ _ sameAlias =>
      .pure (by simp [sameName, sameWord, sameAlias])

theorem namedImports_steady : Steady lead namedImports :=
  node_matches (specifiers_steady importSpecifier_steady) _

theorem importClause_steady : Steady lead importClause := by
  refine node_matches ?_ _
  refine .andThen (isNext_matches _) fun _ => .ite namespaceImport_steady <|
    .andThen (isNext_matches _) fun _ => .ite namedImports_steady <|
    .bind (word_steady _) fun _ _ sameName =>
    .andThen (isNext_matches _) fun _ => .ite ?_ (.pure sameName)
  exact .bind (token_steady _) fun _ _ sameComma => .andThen (isNext_matches _) fun _ =>
    .eitherThen namespaceImport_steady namedImports_steady fun _ _ sameRest =>
      .pure (by simp [sameName, sameComma, sameRest])

section Goals

variable {descend : Descend} (steady : ∀ goal, Steady lead (descend goal))

include steady

theorem importStatement_steady : Steady lead (importStatement descend) := by
  have clause : Steady lead (inTurn [importClause, fromClause]) := by
    refine inTurn_steady ?_
    simp [importClause_steady, fromClause_steady]
  refine node_matches ?_ _
  refine .bind (takeToken_steady _) fun _ _ sameKeyword => .andThen ahead_matches fun _ =>
    .eitherThen (field_matches string_steady _) clause fun _ _ sameSource =>
    .andThen (peek_matches _) fun _ => .andThen (isHere_matches _) fun _ =>
    .bind (onlyIf_matches (node_matches ?_ _) _) fun _ _ sameAttributes =>
    .bind (ending_steady _) fun _ _ sameEnd =>
      .pure (by simp [sameKeyword, sameSource, sameAttributes, sameEnd])
  refine .bind (takeToken_steady _) fun _ _ sameWord => .bind (steady _)
    fun object otherObject sameObject => ?_
  obtain ⟨_, tree, _, otherTree, splits, otherSplits, _, sameTree⟩ := splitLast_cases sameObject
  simp only [splits, otherSplits, judged_alike isSettled_behind sameTree,
    judged_alike (isA_behind .object) sameTree]
  exact .andThen (require_matches rfl _) fun _ => .pure (by simp [sameWord, sameObject])

/-! ## Exports -/

omit steady in
theorem exportSpecifier_steady : Steady lead exportSpecifier := by
  refine node_matches ?_ _
  refine .bind (field_matches exportedName_steady _) fun _ _ sameName =>
    .andThen (isNext_matches _) fun _ => .ite ?_ (.pure sameName)
  exact .bind (token_steady _) fun _ _ sameWord =>
    .bind (field_matches exportedName_steady _) fun _ _ sameAlias =>
      .pure (by simp [sameName, sameWord, sameAlias])

omit steady in
theorem exportNames_steady : Steady lead exportNames :=
  .bind (node_matches (specifiers_steady exportSpecifier_steady) _) fun _ _ sameClause =>
    .andThen (peek_matches _) fun _ => .andThen (isHere_matches _) fun _ =>
    .bind (onlyIf_matches fromClause_steady _) fun _ _ sameSource =>
    .bind (ending_steady _) fun _ _ sameEnd =>
      .pure (by simp [sameClause, sameSource, sameEnd])

omit steady in
theorem exportAll_steady : Steady lead exportAll := by
  refine .bind place_matches fun _ _ sameStart => .bind (token_steady _) fun _ _ sameStar =>
    .andThen (isNext_matches _) fun _ => .ite
      (.bind (token_steady _) fun _ _ sameWord => .bind exportedName_steady fun _ _ sameName =>
        .bind (childrenPure_matches ?_) ?_)
      (.bind (childrenPure_matches sameStar) ?_)
  · simp [sameStart, sameStar, sameWord, sameName]
  -- With a name or without one, the source follows.
  all_goals
    exact fun _ _ sameTarget => .bind fromClause_steady fun _ _ sameSource =>
      .bind (ending_steady _) fun _ _ sameEnd =>
        .pure (by simp [sameTarget, sameSource, sameEnd])

theorem exportDefault_steady : Steady lead (exportDefault descend) := by
  refine .bind (takeToken_steady _) fun _ _ sameKeyword => .andThen ahead_matches fun _ =>
    .bind (declaration?_matches steady _) fun found other sameFound => ?_
  rcases option_cases sameFound with ⟨rfl, rfl⟩ | ⟨children, others, rfl, rfl, sameChildren⟩
  · exact .bind (field_matches (steady _) _) fun _ _ sameValue =>
      .bind (ending_steady _) fun _ _ sameEnd =>
        .pure (by simp [sameKeyword, sameValue, sameEnd])
  · exact .pure (by simp [sameKeyword, sameChildren])

omit steady in
theorem isExport_matches : Matches lead id isExport isExport :=
  .andThen (beyondWord_matches _ _) fun _ => .pure rfl

theorem exportStatement_steady : Steady lead (exportStatement descend) := by
  refine node_matches ?_ _
  refine .bind (decorators_steady steady) fun _ _ sameMarks =>
    .bind (token_steady _) fun _ _ sameKeyword => .andThen ahead_matches fun chars =>
    .andThen (isNext_matches _) fun _ => .ite ?_ <| .andThen (isNext_matches _) fun _ => .ite ?_ <|
    .andThen (isNext_matches _) fun _ => .ite ?_ <| .andThen (isNext_matches _) fun _ => .ite ?_ ?_
  · exact .bind exportAll_steady fun _ _ sameRest =>
      .pure (by simp [sameMarks, sameKeyword, sameRest])
  · exact .bind exportNames_steady fun _ _ sameRest =>
      .pure (by simp [sameMarks, sameKeyword, sameRest])
  · exact .bind (exportDefault_steady steady) fun _ _ sameRest =>
      .pure (by simp [sameMarks, sameKeyword, sameRest])
  · refine .bind (classDeclaration?_matches steady _) fun found other sameFound => ?_
    rcases option_cases sameFound with ⟨rfl, rfl⟩ | ⟨children, others, rfl, rfl, sameChildren⟩
    · exact stop_matches _ _
    · exact .pure (by simp [sameMarks, sameKeyword, sameChildren])
  · refine .eitherThen (functionDeclaration?_matches steady _)
      (declarationFrom?_matches steady _ _) fun found other sameFound => ?_
    rcases option_cases sameFound with ⟨rfl, rfl⟩ | ⟨children, others, rfl, rfl, sameChildren⟩
    · exact stop_matches _ _
    · exact .pure (by simp [sameMarks, sameKeyword, sameChildren])

end Goals

end ShapeAudit.Source.Grammar
