import ShapeAudit.Proofs.Source.Placement.Expression
import ShapeAudit.Source.Grammar.Jsx

/-!
# Elements of JSX wherever they stand

Elements, their attributes and the text between their tags are read behind a
lead as they are read without it.
-/

namespace ShapeAudit.Source.Grammar

open ShapeAudit.Source.Tree (behind childrenBehind)
open Reading

variable {lead : List Char}

/-! ## Names -/

theorem jsxWord_matches (kind : Kind) :
    Matches lead (Prod.map id (childrenBehind lead)) (jsxWord kind) (jsxWord kind) := by
  refine .andThen ahead_matches fun _ => .ite ?_ (.ite ?_ (stop_matches _ _))
  · exact .bind (takeLeaf_steady _ _) fun _ _ same => .pure (by simp [same])
  · exact .bind (takeLeaf_steady _ _) fun _ _ same => .pure (by simp [same])

theorem jsxMembers_matches
    (fuel : Nat) {first second : Tree} (same : first.behind lead = second)
    (isNode : first.kind?.isSome = true) :
    Matches lead (behind lead) (jsxMembers fuel first) (jsxMembers fuel second) := by
  induction fuel generalizing first second with
  | zero =>
      exact .pure same
  | succ fuel inductionHypothesis =>
      refine .andThen (isNext_matches _) fun _ => .ite ?_ (.pure same)
      exact .bind (token_steady _) fun _ _ samePoint =>
        .bind (field_matches (word_steady _) _) fun _ _ sameProperty =>
          inductionHypothesis
            (by simp [same, placeOf_alike same isNode, samePoint, sameProperty]) rfl

theorem inNamespace_matches
    {before others : List Child} {first second : Tree}
    (sameBefore : childrenBehind lead before = others) (sameFirst : first.behind lead = second)
    (isNode : first.kind?.isSome = true) :
    Matches lead (childrenBehind lead) (inNamespace before first) (inNamespace others second) := by
  refine .bind (token_steady _) fun _ _ sameColon =>
    .bind (jsxWord_matches _) fun found other sameFound => ?_
  obtain ⟨dashed, name⟩ := found
  obtain ⟨otherDashed, otherName⟩ := other
  have sameName := (Prod.mk.inj sameFound).2
  exact .pure (by simp [sameBefore, sameFirst, isNode, sameColon, sameName])

theorem elementName_steady : Steady lead elementName := by
  refine .bind ((jsxWord_matches _).and (jsxWord_ends _)) fun found other together => ?_
  obtain ⟨dashed, children⟩ := found
  obtain ⟨otherDashed, others⟩ := other
  obtain ⟨rfl, sameChildren⟩ := Prod.mk.inj together.1
  obtain ⟨before, first, otherBefore, otherFirst, splits, otherSplits, sameBefore, sameFirst⟩ :=
    splitLast_cases sameChildren
  have isNode := isNode_of_ends together.2 splits
  simp only [splits, otherSplits]
  refine .andThen (isNext_matches _) fun _ =>
    .ite (inNamespace_matches sameBefore sameFirst isNode) <| .ite (.pure sameChildren) ?_
  exact .bind (.bounded fun fuel => jsxMembers_matches fuel sameFirst isNode)
    fun _ _ sameTree => .pure (by simp [sameBefore, sameTree])

theorem closingTag_steady : Steady lead closingTag := by
  refine node_matches ?_ _
  exact .bind (token_steady _) fun _ _ sameOpening => .andThen (isNext_matches _) fun _ =>
    .bind (onlyIf_matches (field_matches elementName_steady _) _) fun _ _ sameName =>
    .bind (token_steady _) fun _ _ sameClosing =>
      .pure (by simp [sameOpening, sameName, sameClosing])

section Goals

variable {descend : Descend} (steady : ∀ goal, Steady lead (descend goal))

include steady

/-! ## Attributes -/

theorem jsxExpression_steady : Steady lead (jsxExpression descend) := by
  have spread :
      Steady lead (node .spreadElement (inTurn [token "...", innerExpression descend])) := by
    refine node_matches (inTurn_steady ?_) _
    simp [token_steady, innerExpression_steady steady]
  refine node_matches ?_ _
  refine .bind (token_steady _) fun _ _ sameOpening => .andThen (isNext_matches _) fun _ =>
    .andThen (isNext_matches _) fun _ => .ite ?_ ?_
  · exact .bind (childrenPure_matches rfl) fun _ _ sameInside =>
      .bind (token_steady _) fun _ _ sameClosing =>
        .pure (by simp [sameOpening, sameInside, sameClosing])
  · exact .eitherThen spread (steady _) fun _ _ sameInside =>
      .bind (token_steady _) fun _ _ sameClosing =>
        .pure (by simp [sameOpening, sameInside, sameClosing])

theorem attributeValue_steady : Steady lead (attributeValue descend) := by
  refine .andThen ahead_matches fun chars => ?_
  cases chars with
  | nil =>
      exact stop_matches _ _
  | cons c rest =>
      refine .ite ?_ (.ite (jsxExpression_steady steady) (.ite (steady _) (stop_matches _ _)))
      split
      · exact stop_matches _ _
      · exact takeLeaf_steady _ _

theorem jsxAttribute_steady : Steady lead (jsxAttribute descend) := by
  refine .andThen (isNext_matches _) fun _ => .ite (jsxExpression_steady steady)
    (node_matches ?_ _)
  refine .bind cursor_matches fun position otherPosition samePosition =>
    .bind (jsxWord_matches _) fun found other sameFound => ?_
  obtain ⟨dashed, name⟩ := found
  obtain ⟨otherDashed, otherName⟩ := other
  have sameName := (Prod.mk.inj sameFound).2
  have valued {whole otherWhole : List Child}
      (sameWhole : childrenBehind lead whole = otherWhole) :
      Matches lead (childrenBehind lead)
        (isNext "=" >>= fun isAssigned =>
          if isAssigned then token "=" >>= fun sign => attributeValue descend >>= fun value =>
            pure (whole ++ sign ++ value)
          else pure whole)
        (isNext "=" >>= fun isAssigned =>
          if isAssigned then token "=" >>= fun sign => attributeValue descend >>= fun value =>
            pure (otherWhole ++ sign ++ value)
          else pure otherWhole) :=
    .andThen (isNext_matches _) fun _ => .ite
      (.bind (token_steady _) fun _ _ sameSign =>
        .bind (attributeValue_steady steady) fun _ _ sameValue =>
          .pure (by simp [sameWhole, sameSign, sameValue]))
      (.pure sameWhole)
  refine .andThen (isNext_matches _) fun _ => .ite (.bind (inNamespace_matches rfl ?_ rfl)
    fun _ _ sameWhole => valued sameWhole) (valued sameName)
  exact congrArg₂ (Tree.leaf .identifier) samePosition.place (spelling_alike (last_alike sameName))

/-! ## Elements -/

theorem jsxChild_matches :
    Matches lead (Option.map (childrenBehind lead)) (jsxChild descend) (jsxChild descend) := by
  refine .bind cursor_matches fun position otherPosition samePosition => ?_
  have moved := samePosition.advance (Lexeme.separators otherPosition.rest)
  simp only [samePosition.rest, moved.rest]
  cases htmlComment? otherPosition.rest with
  | some comment =>
      obtain ⟨blanks, length⟩ := comment
      exact .andThen (resume_matches ((samePosition.advance blanks).passComment _ length))
        fun _ => .pure rfl
  | none =>
      dsimp only
      split
      · exact .andThen (resume_matches (samePosition.advance _)) fun _ =>
          some_matches (takeLeaf_steady _ _)
      · split
        · exact .andThen (resume_matches (moved.passComment _ _)) fun _ => .pure rfl
        · refine .andThen (resume_matches ?_) fun _ => .andThen (isNext_matches _) fun _ =>
            .ite (.pure rfl) <| .andThen (isNext_matches _) fun _ =>
            .ite (some_matches (steady _)) <| .andThen (isNext_matches _) fun _ =>
            .ite (some_matches (jsxExpression_steady steady)) ?_
          · exact ⟨rfl, moved.place, moved.passed, rfl, moved.placed⟩
          · split
            · exact stop_matches _ _
            · exact some_matches (takeLeaf_steady _ _)

theorem jsxElement_steady : Steady lead (jsxElement descend) := by
  have attributes : Steady lead (repeated do
      if (← isNext ">") || (← isNext "/>") then return none
      else return some (← field "attribute" (jsxAttribute descend))) :=
    repeated_matches <| .andThen (isNext_matches _) fun _ => .andThen (isNext_matches _) fun _ =>
      .ite (.pure rfl) (some_matches (field_matches (jsxAttribute_steady steady) _))
  refine construct_matches ?_
  refine .bind place_matches fun _ _ sameStart => .bind (token_steady _) fun _ _ sameOpening =>
    .andThen (isNext_matches _) fun _ =>
    .bind (onlyIf_matches (field_matches elementName_steady _) _) fun _ _ sameName =>
    .bind (onlyIf_matches attributes _) fun _ _ sameAttributes =>
    .andThen (isNext_matches _) fun _ => .ite ?_ ?_
  · exact .bind (token_steady _) fun _ _ sameClosing =>
      .pure (by simp [sameOpening, sameName, sameAttributes, sameClosing])
  · exact .bind (token_steady _) fun _ _ sameEnd =>
      .bind (repeated_matches (jsxChild_matches steady)) fun _ _ sameChildren =>
      .bind (field_matches closingTag_steady _) fun _ _ sameClosing =>
        .pure (by simp [sameStart, sameOpening, sameName, sameAttributes, sameEnd, sameChildren,
          sameClosing])

end Goals

end ShapeAudit.Source.Grammar
