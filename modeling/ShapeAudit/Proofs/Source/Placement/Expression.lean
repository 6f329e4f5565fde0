import ShapeAudit.Proofs.Source.Placement.Tree
import ShapeAudit.Source.Grammar.Operator

/-!
# Expressions wherever they stand

Every construct of an expression is read behind a lead as it is read without it,
as soon as the constructs in it are.
-/

namespace ShapeAudit.Source.Grammar

open ShapeAudit.Source.Tree (behind childrenBehind)
open Reading

variable {lead : List Char}

/-! ## Small readings -/

theorem require_matches
    {condition other : Bool} (same : condition = other) (wanted : Wanted) :
    Matches lead id (require condition wanted) (require other wanted) := by
  subst same
  exact .ite (.pure rfl) (stop_matches _ _)

theorem childrenPure_matches
    {children others : List Child} (same : childrenBehind lead children = others) :
    Matches lead (childrenBehind lead) (Pure.pure children) (Pure.pure others) :=
  .pure same

theorem some_matches
    {reading : Reading (List Child)} (both : Steady lead reading) :
    Matches lead (Option.map (childrenBehind lead))
      (reading >>= fun children => pure (some children))
      (reading >>= fun children => pure (some children)) :=
  .bind both fun _ _ same => .pure (congrArg some same)

theorem plainPure_matches {α : Type} (value : α) :
    Matches lead id (Pure.pure value) (Pure.pure value) :=
  .pure rfl

theorem optional_steady (spelling : String) : Steady lead (optional spelling) :=
  .andThen (isNext_matches _) fun _ => onlyIf_matches (takeToken_steady _) _

theorem ending_steady (mode : Mode) : Steady lead (ending mode) := by
  refine .andThen (peek_matches mode) fun mark => ?_
  cases mark with
  | unseen =>
      exact stop_matches _ _
  | token =>
      exact .andThen (isHere_matches _) fun _ => .ite (takeToken_steady _) (stop_matches _ _)
  | semicolon =>
      exact .andThen consumeMark_matches fun _ => .pure rfl
  | question =>
      exact stop_matches _ _

/-- A lexeme is a leaf, unless it has no length. -/
theorem lexeme_steady (kind : Kind) (length : Nat) :
    Steady lead (match length with
      | 0 => stop .operand
      | length => takeLeaf kind length) := by
  split
  · exact stop_matches _ _
  · exact takeLeaf_steady _ _

theorem string_steady : Steady lead string := by
  unfold string
  exact .andThen ahead_matches fun chars => lexeme_steady .string (Lexeme.string chars)

theorem number_steady : Steady lead number := by
  unfold number
  -- The lexeme is made a variable, or the match on it would be evaluated.
  generalize Lexeme.number = lexeme
  exact .andThen ahead_matches fun chars => lexeme_steady .number (lexeme chars)

theorem privateName_steady : Steady lead privateName := by
  unfold privateName
  exact .andThen ahead_matches fun chars =>
    lexeme_steady .privatePropertyIdentifier (Lexeme.privateName chars)

theorem construct_matches
    {first second : Reading (Kind × List Child)}
    (both : Matches lead (Prod.map id (childrenBehind lead)) first second) :
    Matches lead (childrenBehind lead) (construct first) (construct second) := by
  refine .bind place_matches fun _ _ sameStart => .bind comments_matches fun _ _ sameBefore =>
    .bind both fun found other same => ?_
  obtain ⟨kind, children⟩ := found
  obtain ⟨otherKind, others⟩ := other
  obtain ⟨rfl, sameChildren⟩ := Prod.mk.inj same
  exact .pure (by simp [sameStart, sameBefore, sameChildren])

theorem listed_matches
    {first second : Reading (List Child)} (both : Matches lead (childrenBehind lead) first second)
    (closing : String) (gaps : Bool) :
    Matches lead (childrenBehind lead) (listed closing gaps first)
      (listed closing gaps second) := by
  refine .bind (repeated_matches ?_) fun _ _ sameItems =>
    .bind (token_steady closing) fun _ _ sameClosing => .pure (by simp [sameItems, sameClosing])
  refine .andThen (isNext_matches _) fun closes => .ite (.pure rfl) ?_
  refine .andThen (isNext_matches _) fun isComma => .ite ?_ ?_
  · exact .bind (token_steady _) fun _ _ same => .pure (by simp [same])
  · refine .bind both fun _ _ same => .andThen (isNext_matches _) fun _ => .ite ?_ ?_
    · exact .pure (by simp [same])
    · exact .bind (token_steady _) fun _ _ sameComma => .pure (by simp [same, sameComma])

/-- An optional value and its view are both there or both missing. -/
theorem option_cases
    {α β : Type} {view : α → β} {found : Option α} {other : Option β}
    (same : found.map view = other) :
    (found = none ∧ other = none) ∨
      ∃ value otherValue, found = some value ∧ other = some otherValue ∧
        view value = otherValue := by
  subst same
  cases found with
  | none =>
      exact .inl ⟨rfl, rfl⟩
  | some value =>
      exact .inr ⟨value, view value, rfl, rfl, rfl⟩

/-- What is read last and what is read before it. -/
theorem splitLast_cases
    {children others : List Child} (same : childrenBehind lead children = others) :
    ∃ before tree otherBefore otherTree,
      splitLast children = (before, tree) ∧ splitLast others = (otherBefore, otherTree) ∧
        childrenBehind lead before = otherBefore ∧ tree.behind lead = otherTree := by
  subst same
  exact ⟨_, _, _, _, rfl, splitLast_behind children, rfl, rfl⟩

theorem last_alike
    {children others : List Child} (same : childrenBehind lead children = others) :
    (splitLast children).2.behind lead = (splitLast others).2 := by
  rw [← same, splitLast_behind]

theorem toPattern?_alike
    (role : Role) {tree other : Tree} (same : tree.behind lead = other) :
    (toPattern? role tree).map (behind lead) = toPattern? role other := by
  rw [← same, toPattern?_behind]

theorem toPatterns?_alike
    (role : Role) {children others : List Child} (same : childrenBehind lead children = others) :
    (toPatterns? role children).map (childrenBehind lead) = toPatterns? role others := by
  rw [← same, toPatterns?_behind]

theorem toTarget?_alike {tree other : Tree} (same : tree.behind lead = other) :
    (toTarget? tree).map (behind lead) = toTarget? other := by
  rw [← same, toTarget?_behind]

theorem asTarget_matches
    {first second : Reading (List Child)} (both : Matches lead (childrenBehind lead) first second) :
    Matches lead (childrenBehind lead) (asTarget first) (asTarget second) := by
  refine .bind cursor_matches fun start otherStart sameStart => .bind both
    fun children others sameChildren => ?_
  obtain ⟨before, tree, otherBefore, otherTree, splits, otherSplits, sameBefore, sameTree⟩ :=
    splitLast_cases sameChildren
  simp only [splits, otherSplits]
  rcases option_cases (toPattern?_alike .target sameTree) with
    ⟨missing, otherMissing⟩ | ⟨pattern, otherPattern, found, otherFound, same⟩
  · simp only [missing, otherMissing]
    exact .fail sameStart.rest
  · simp only [found, otherFound]
    exact .pure (by simp [sameBefore, same])

theorem afterBlock_matches (mode : Mode) : Matches lead id (afterBlock mode) (afterBlock mode) :=
  .andThen (peek_matches mode) fun _ => .ite consumeMark_matches (.pure rfl)

section Goals

variable {descend : Descend} (steady : ∀ goal, Steady lead (descend goal))

include steady

theorem innerExpression_steady : Steady lead (innerExpression descend) :=
  steady _

theorem statements_steady : Steady lead (statements descend) :=
  repeated_matches <| .andThen (isNext_matches _) fun _ => .ite (.pure rfl) <|
    .bind (steady _) fun _ _ same => .pure (by simp [same])

theorem block_steady (mode : Mode) : Steady lead (block descend mode) := by
  refine .bind (node_matches (inTurn_steady ?_) _) fun _ _ same =>
    .andThen (afterBlock_matches mode) fun _ => .pure same
  simp [token_steady, statements_steady steady]

/-! ## Functions -/

theorem element_steady (context : Context) : Steady lead (element descend context) := by
  refine .andThen (isNext_matches _) fun _ => .ite (node_matches (inTurn_steady ?_) _) (steady _)
  simp [token_steady, steady]

theorem arguments_steady (context : Context) : Steady lead (arguments descend context) := by
  refine node_matches (inTurn_steady ?_) _
  simp [token_steady, listed_matches (element_steady steady context)]

theorem parameter_steady : Steady lead (parameter descend) := by
  refine .bind cursor_matches fun start otherStart sameStart =>
    .bind (element_steady steady _) fun children others sameChildren => ?_
  obtain ⟨before, tree, otherBefore, otherTree, splits, otherSplits, sameBefore, sameTree⟩ :=
    splitLast_cases sameChildren
  simp only [splits, otherSplits]
  rcases option_cases (toPattern?_alike .element sameTree) with
    ⟨missing, otherMissing⟩ | ⟨pattern, otherPattern, found, otherFound, same⟩
  · simp only [missing, otherMissing]
    exact .fail sameStart.rest
  · simp only [found, otherFound]
    exact .pure (by simp [sameBefore, same])

theorem parameters_steady : Steady lead (parameters descend) := by
  refine node_matches (inTurn_steady ?_) _
  simp [token_steady, listed_matches (parameter_steady steady)]

theorem binding_steady : Steady lead (binding descend) :=
  .andThen (isNext_matches _) fun _ => .andThen (isNext_matches _) fun _ =>
    .ite (asTarget_matches (steady _)) (word_steady _)

/-- A function of a source once a text stands before the source. -/
def FunctionParts.behind (lead : List Char) (parts : FunctionParts) : FunctionParts :=
  { parts with children := childrenBehind lead parts.children }

theorem functionParts_matches :
    Matches lead (FunctionParts.behind lead) (functionParts descend) (functionParts descend) :=
  .bind (optional_steady _) fun _ _ sameMark =>
  .bind (token_steady _) fun _ _ sameKeyword =>
  .andThen (isNext_matches _) fun _ =>
  .bind (optional_steady _) fun _ _ sameStar =>
  .andThen nextWord_matches fun _ =>
  .bind (onlyIf_matches (field_matches (word_steady _) _) _) fun _ _ sameName =>
  .bind (field_matches (parameters_steady steady) _) fun _ _ sameSignature =>
  .bind (field_matches (block_steady steady _) _) fun _ _ sameBody =>
  .pure (by simp [FunctionParts.behind, sameMark, sameKeyword, sameStar, sameName, sameSignature,
    sameBody])

theorem functionExpression_steady : Steady lead (functionExpression descend) := by
  refine construct_matches (.bind (functionParts_matches steady) fun parts others same => ?_)
  subst same
  exact .pure rfl

end Goals

theorem decoratorNames_matches
    (fuel : Nat) {before others : List Child} {first second : Tree}
    (sameBefore : childrenBehind lead before = others)
    (sameFirst : first.behind lead = second) (isNode : first.kind?.isSome = true) :
    Matches lead (childrenBehind lead) (decoratorNames fuel before first)
      (decoratorNames fuel others second) := by
  induction fuel generalizing first second with
  | zero =>
      exact .pure (by simp [sameBefore, sameFirst])
  | succ fuel inductionHypothesis =>
      refine .andThen (isNext_matches _) fun _ => .ite ?_ ?_
      · exact .bind (token_steady _) fun _ _ samePoint =>
          .bind (field_matches (word_steady _) _) fun _ _ sameProperty =>
            inductionHypothesis
              (by simp [sameFirst, placeOf_alike sameFirst isNode, samePoint, sameProperty]) rfl
      · exact .pure (by simp [sameBefore, sameFirst])

section Goals

variable {descend : Descend} (steady : ∀ goal, Steady lead (descend goal))

include steady

theorem decorator_steady : Steady lead (decorator descend) := by
  refine node_matches (.bind (token_steady _) fun _ _ sameSign =>
    .bind ((word_steady _).and (word_ends _)) fun children others word => ?_) _
  obtain ⟨before, first, otherBefore, otherFirst, splits, otherSplits, sameBefore, sameFirst⟩ :=
    splitLast_cases word.1
  have firstIsNode := isNode_of_ends word.2 splits
  simp only [splits, otherSplits]
  refine .bind ((Corresponds.bounded fun fuel =>
    decoratorNames_matches fuel sameBefore sameFirst firstIsNode).and
      (.bounded fun fuel => decoratorNames_ends fuel before firstIsNode))
    fun names otherNames together => ?_
  obtain ⟨_, named, _, otherNamed, named_eq, otherNamed_eq, _, sameNamed⟩ :=
    splitLast_cases together.1
  have namedIsNode := isNode_of_ends together.2 named_eq
  simp only [named_eq, otherNamed_eq]
  refine .andThen (isNext_matches _) fun _ => .ite ?_ ?_
  · exact .bind (field_matches (arguments_steady steady _) _) fun _ _ sameCalled =>
      .pure (by simp [sameSign, sameBefore, sameNamed, namedIsNode, sameCalled])
  · exact .pure (by simp [sameSign, sameBefore, sameNamed])

theorem decorators_steady : Steady lead (decorators descend) :=
  field_matches (repeated_matches <| .andThen (isNext_matches _) fun _ =>
    .ite (.bind (decorator_steady steady) fun _ _ same => .pure (by simp [same])) (.pure rfl)) _

end Goals

/-! ## Members -/

theorem beyondWord_matches (mode : Mode) (length : Nat) :
    Matches lead id (beyondWord mode length) (beyondWord mode length) := by
  have looks : Matches lead id
      (do
        let _ ← takeToken length
        let mark ← peek mode
        return (mark, ← here))
      (do
        let _ ← takeToken length
        let mark ← peek mode
        return (mark, ← here)) :=
    .bind (takeToken_steady length) fun _ _ _ => .andThen (peek_matches mode) fun _ =>
      .andThen here_matches fun _ => .pure rfl
  refine .bind (attempt_matches looks) fun result other same => ?_
  rcases outcome_cases same with
    ⟨value, later, otherValue, otherLater, rfl, rfl, rfl, _⟩ | ⟨_, _, rfl, rfl, _⟩
  · exact .pure rfl
  · exact .pure rfl

theorem modifier_steady (inClass : Bool) (spellings : List String) :
    Steady lead (modifier inClass spellings) :=
  .andThen nextWord_matches fun _ => .ite
    (.andThen (beyondWord_matches _ _) fun _ => .ite (.pure rfl) (takeToken_steady _))
    (.pure rfl)

/-- Modifiers of a source once a text stands before the source. -/
def Modifiers.behind (lead : List Char) (modifiers : Modifiers) : Modifiers :=
  { modifiers with children := childrenBehind lead modifiers.children }

theorem modifiers_matches (inClass : Bool) :
    Matches lead (Modifiers.behind lead) (modifiers inClass) (modifiers inClass) := by
  refine .andThen ahead_matches fun chars => .ite
    (.bind comments_matches fun before otherBefore sameBefore =>
      .bind (takeToken_steady _) fun _ _ _ => .bind (childrenPure_matches ?_) ?_)
    (.bind (modifier_steady _ _) ?_)
  · simp [sameBefore]
  -- Whichever way the first modifier has been read, the others follow.
  all_goals
    intro still otherStill sameStill
    refine .bind (modifier_steady _ _) fun waiting otherWaiting sameWaiting =>
      .bind (modifier_steady _ _) fun access otherAccess sameAccess => ?_
    rw [isEmpty_alike sameAccess]
    exact .bind (onlyIf_matches (optional_steady _) _) fun star otherStar sameStar =>
      .pure (by simp [Modifiers.behind, sameStill, sameWaiting, sameAccess, sameStar,
        isEmpty_alike sameStill, isEmpty_alike sameWaiting,
        isEmpty_alike sameStar])

section Goals

variable {descend : Descend} (steady : ∀ goal, Steady lead (descend goal))

include steady

theorem computedName_steady : Steady lead (computedName descend) := by
  refine node_matches (inTurn_steady ?_) _
  simp [token_steady, innerExpression_steady steady]

theorem propertyName_steady : Steady lead (propertyName descend) := by
  unfold propertyName
  generalize Lexeme.number = number
  refine .andThen ahead_matches fun chars => ?_
  cases chars with
  | nil =>
      exact stop_matches _ _
  | cons c rest =>
      exact .ite privateName_steady <| .ite string_steady <| .ite (computedName_steady steady) <|
        .ite number_steady (word_steady _)

theorem methodTail_steady : Steady lead (methodTail descend) := by
  refine inTurn_steady ?_
  simp [field_matches (parameters_steady steady), field_matches (block_steady steady _)]

theorem arrayLiteral_steady : Steady lead (arrayLiteral descend) := by
  refine node_matches (inTurn_steady ?_) _
  simp [token_steady, listed_matches (element_steady steady _)]

theorem afterName_matches
    {name otherName : List Child} (sameName : childrenBehind lead name = otherName) :
    Matches lead (Prod.map id (childrenBehind lead)) (afterName descend name)
      (afterName descend otherName) := by
  refine .andThen (isNext_matches _) fun _ => .ite ?_ ?_
  · exact .bind (methodTail_steady steady) fun _ _ sameTail =>
      .pure (by simp [sameName, sameTail])
  · exact .bind (token_steady _) fun _ _ sameColon =>
      .bind (field_matches (element_steady steady _) _) fun _ _ sameValue =>
        .pure (by simp [sameName, sameColon, sameValue])

theorem entryDefault_matches
    {left otherLeft : List Child} (sameLeft : childrenBehind lead left = otherLeft) :
    Matches lead (childrenBehind lead) (entryDefault descend left)
      (entryDefault descend otherLeft) :=
  .bind (token_steady _) fun _ _ sameSign =>
    .bind (field_matches (innerExpression_steady steady) _) fun _ _ sameValue =>
      .pure (by simp [sameLeft, sameSign, sameValue])

theorem wordEntry_steady : Steady lead (wordEntry descend) := by
  refine .andThen ahead_matches fun chars => .andThen (beyondWord_matches _ _) fun beyond => ?_
  refine .ite ?_ (.ite ?_ (word_steady _))
  · exact construct_matches (.bind (word_steady _) fun _ _ sameName =>
      afterName_matches steady sameName)
  · exact node_matches (.bind (word_steady _) fun _ _ sameName =>
      entryDefault_matches steady sameName) _

theorem bracketEntry_steady : Steady lead (bracketEntry descend) := by
  refine construct_matches (.bind cursor_matches fun start otherStart sameStart =>
    .bind (arrayLiteral_steady steady) fun children others sameChildren => ?_)
  obtain ⟨before, tree, otherBefore, otherTree, splits, otherSplits, sameBefore, sameTree⟩ :=
    splitLast_cases sameChildren
  simp only [splits, otherSplits]
  rcases behind_cases sameTree with ⟨spelling, rfl, rfl⟩ |
    ⟨kind, place, otherPlace, spelling, rfl, rfl, _⟩ |
    ⟨kind, place, otherPlace, inner, otherInner, rfl, rfl, samePlace, sameInner⟩
  · exact stop_matches _ _
  · exact stop_matches _ _
  · by_cases isArray : kind = .array
    · subst isArray
      refine .andThen (isNext_matches _) fun _ => .ite ?_ ?_
      · rcases option_cases (toPattern?_alike .target sameTree) with
          ⟨missing, otherMissing⟩ | ⟨pattern, otherPattern, found, otherFound, same⟩
        · simp only [missing, otherMissing]
          exact .fail sameStart.rest
        · simp only [found, otherFound]
          refine .bind (entryDefault_matches steady ?_) fun _ _ sameEntry =>
            .pure (by simp [sameEntry])
          simp [sameBefore, same]
      · have sameProper := filter_alike sameInner
          (fun child => !child.2.isExtra) (fun _ => by simp)
        have samePlain := all_alike sameProper
          (fun child => !child.2.isA .spreadElement && child.2.spelling ≠ ",")
          (fun _ => by simp [Tree.spelling_behind])
        rw [length_alike sameProper, samePlain, judged_alike isSettled_behind sameTree]
        refine .ite (afterName_matches steady ?_) (stop_matches _ _)
        simp [sameBefore, samePlace, sameInner]
    · simp [isArray, stop_matches]

theorem entry_steady : Steady lead (entry descend) := by
  refine .andThen ahead_matches fun chars => ?_
  cases chars with
  | nil =>
      exact stop_matches _ _
  | cons c rest =>
      refine .ite ?_ (.andThen (isNext_matches _) fun _ => .ite ?_ (.ite ?_ (.ite ?_ ?_)))
      · exact construct_matches (.bind (decorators_steady steady) fun _ _ sameMarks =>
          .bind (modifiers_matches _) fun found other sameFound =>
          .bind (field_matches (propertyName_steady steady) _) fun _ _ sameName =>
          .bind (methodTail_steady steady) fun _ _ sameTail => .pure (by
            simp [sameMarks, (Modifiers.mk.inj sameFound).2, sameName, sameTail]))
      · refine node_matches (inTurn_steady ?_) _
        simp [token_steady, steady]
      · exact node_matches (.bind (asTarget_matches (steady _)) fun _ _ sameLeft =>
          entryDefault_matches steady sameLeft) _
      · exact bracketEntry_steady steady
      · refine .bind cursor_matches fun start otherStart sameStart =>
          .bind (modifiers_matches _) fun found other sameFound => ?_
        obtain ⟨sameMethod, sameModifiers⟩ := Modifiers.mk.inj sameFound
        rw [sameMethod]
        refine .ite ?_ (.ite (wordEntry_steady steady) ?_)
        · exact .bind (field_matches (propertyName_steady steady) _) fun _ _ sameName =>
            .bind (methodTail_steady steady) fun _ _ sameTail => .pure (by
              simp [sameStart.place, sameModifiers, sameName, sameTail])
        · exact construct_matches (.bind (propertyName_steady steady) fun _ _ sameName =>
            afterName_matches steady sameName)

theorem objectLiteral_steady : Steady lead (objectLiteral descend) := by
  refine node_matches (inTurn_steady ?_) _
  simp [token_steady, listed_matches (entry_steady steady)]

end Goals

/-! ## Classes -/

theorem templateElement_steady : Steady lead templateElement := by
  refine node_matches (.bind (token_steady _) fun _ _ _ => .bind (repeated_matches ?_)
    fun _ _ sameContent => .bind (token_steady _) fun _ _ _ => .pure sameContent) _
  exact .andThen ahead_matches fun _ => .andThen (isNext_matches _) fun _ =>
    .ite (.pure rfl) (.bind (takeToken_steady _) fun _ _ _ => .pure rfl)

section Goals

variable {descend : Descend} (steady : ∀ goal, Steady lead (descend goal))

include steady

theorem methodOrField_steady : Steady lead (methodOrField descend) := by
  refine .bind place_matches fun start otherStart sameStart =>
    .bind comments_matches fun before otherBefore sameBefore =>
    .bind (decorators_steady steady) fun marks otherMarks sameMarks =>
    .bind (modifiers_matches _) fun found other sameFound =>
    .bind (propertyName_steady steady) fun name otherName sameName => ?_
  obtain ⟨sameMethod, sameModifiers⟩ := Modifiers.mk.inj sameFound
  rw [sameMethod]
  refine .andThen (peek_matches _) fun mark => .andThen (isHere_matches _) fun opens => .ite ?_ ?_
  · exact .bind (methodTail_steady steady) fun _ _ sameTail =>
      .bind (optional_steady _) fun _ _ sameEnd => .pure (by
        simp [sameStart, sameBefore, sameMarks, sameModifiers, sameName, sameTail, sameEnd])
  · refine .ite (stop_matches _ _) (.andThen (isHere_matches _) fun assigned => ?_)
    refine .bind (onlyIf_matches (inTurn_steady ?_) _) fun _ _ sameValue =>
      .bind (ending_steady _) fun _ _ sameEnd => .pure (by
        simp [sameStart, sameBefore, sameMarks, sameModifiers, sameName, sameValue, sameEnd])
    simp [token_steady, field_matches (steady _)]

theorem classMember_steady : Steady lead (classMember descend) := by
  refine .andThen (isNext_matches _) fun _ => .ite (token_steady _) ?_
  refine .andThen (isNext_matches _) fun _ => .ite (field_matches templateElement_steady _) ?_
  refine .andThen (beyondWord_matches _ _) fun beyond => .andThen (isWord_matches _) fun _ =>
    .ite (field_matches (node_matches (inTurn_steady ?_) _) _) (methodOrField_steady steady)
  simp [token_steady, field_matches (block_steady steady _)]

theorem classBody_steady : Steady lead (classBody descend) := by
  refine node_matches (.bind (token_steady _) fun _ _ sameOpening =>
    .bind (repeated_matches ?_) fun _ _ sameMembers => .bind (token_steady _) fun _ _ sameClosing =>
      .pure (by simp [sameOpening, sameMembers, sameClosing])) _
  refine .andThen (isNext_matches _) fun _ => .ite (.pure rfl) <|
    .bind cursor_matches fun position otherPosition samePosition => ?_
  rw [samePosition.rest]
  exact .ite (stop_matches _ _) <| .bind (classMember_steady steady) fun _ _ same =>
    .pure (by simp [same])

/-- A class of a source once a text stands before the source. -/
def ClassParts.behind (lead : List Char) (parts : ClassParts) : ClassParts :=
  { parts with children := childrenBehind lead parts.children }

theorem classParts_matches :
    Matches lead (ClassParts.behind lead) (classParts descend) (classParts descend) := by
  refine .bind (decorators_steady steady) fun _ _ sameMarks =>
    .bind (token_steady _) fun _ _ sameKeyword =>
    .andThen nextWord_matches fun _ =>
    .bind (onlyIf_matches (field_matches (word_steady _) _) _) fun _ _ sameName =>
    .andThen (isNext_matches _) fun _ =>
    .bind (onlyIf_matches (node_matches (inTurn_steady ?_) _) _) fun _ _ sameHeritage =>
    .bind (field_matches (classBody_steady steady) _) fun _ _ sameBody =>
    .pure (by simp [ClassParts.behind, sameMarks, sameKeyword, sameName, sameHeritage, sameBody])
  simp [token_steady, innerExpression_steady steady]

theorem classExpression_steady : Steady lead (classExpression descend) :=
  node_matches (.bind (classParts_matches steady) fun _ _ same =>
    .pure (ClassParts.mk.inj same).2) _

/-! ## Templates -/

theorem templatePiece_matches :
    Matches lead (Option.map (childrenBehind lead)) (templatePiece descend)
      (templatePiece descend) := by
  refine .bind cursor_matches fun position otherPosition samePosition => ?_
  rw [samePosition.rest]
  cases Lexeme.templateText otherPosition.rest with
  | succ length =>
      exact .bind (takeLeaf_steady _ _) fun _ _ same => .pure (by simp [same])
  | zero =>
      cases Lexeme.escape otherPosition.rest with
      | succ length =>
          exact .bind (takeLeaf_steady _ _) fun _ _ same => .pure (by simp [same])
      | zero =>
          refine .ite (.bind (inTurn_steady ?_) fun _ _ same =>
            .pure (by simp [samePosition.place, same])) (.pure rfl)
          simp [takeToken_steady, steady, token_steady]

theorem template_steady : Steady lead (template descend) := by
  refine node_matches (.bind (token_steady _) fun _ _ sameOpening =>
    .bind (repeated_matches (templatePiece_matches steady)) fun _ _ samePieces =>
    .bind cursor_matches fun position otherPosition samePosition => ?_) _
  rw [samePosition.rest]
  exact .ite (.bind (takeToken_steady _) fun _ _ sameClosing =>
    .pure (by simp [sameOpening, samePieces, sameClosing])) (stop_matches _ _)

end Goals

/-! ## Blocks and objects -/

theorem requireEntry_matches : Matches lead id requireEntry requireEntry := by
  refine .bind (attempt_matches (.bind (token_steady _) fun _ _ _ =>
    .andThen nextWord_matches fun first => .andThen (beyondWord_matches _ _) fun beyond =>
      plainPure_matches _)) fun result other same => ?_
  rcases outcome_cases same with
    ⟨value, later, otherValue, otherLater, rfl, rfl, rfl, sameLater⟩ |
      ⟨stopped, otherStopped, rfl, rfl, sameRest⟩
  · exact .ite (.fail sameLater.rest) (.pure rfl)
  · exact .fail sameRest

section Goals

variable {descend : Descend} (steady : ∀ goal, Steady lead (descend goal))

include steady

theorem blockOrObject_steady
    (mode : Mode) (continues : Mark → List Char → Bool) {object : Reading (List Child)}
    (objectSteady : Steady lead object) :
    Steady lead (blockOrObject descend mode continues object) := by
  have guarded : Steady lead (requireEntry >>= fun _ => object) :=
    .andThen requireEntry_matches fun _ => objectSteady
  refine .bind (attempt_matches (block_steady steady mode)) fun result other same => ?_
  rcases outcome_cases same with
    ⟨children, later, otherChildren, otherLater, rfl, rfl, sameChildren, sameLater⟩ |
      ⟨stopped, otherStopped, rfl, rfl, sameRest⟩
  · have stay : Matches lead (childrenBehind lead) (resume later >>= fun _ => pure children)
        (resume otherLater >>= fun _ => pure otherChildren) :=
      .andThen (resume_matches sameLater) fun _ => .pure sameChildren
    dsimp only
    rw [isEmpty_statementsOf_alike sameChildren,
      childrenJudged_alike mayBeObject_behind sameChildren,
      childrenJudged_alike mayBePattern_behind sameChildren,
      sameLater.mark, sameLater.rest]
    refine .ite (.bind (attempt_matches guarded) fun result other same => ?_) stay
    rcases outcome_cases same with
      ⟨value, after, otherValue, otherAfter, rfl, rfl, sameValue, sameAfter⟩ | ⟨_, _, rfl, rfl, _⟩
    · exact .andThen (resume_matches sameAfter) fun _ => .pure sameValue
    · exact stay
  · dsimp only
    rw [atEnd_congr sameRest]
    refine .ite (.fail sameRest) (.bind (attempt_matches guarded) fun result other same => ?_)
    rcases outcome_cases same with
      ⟨value, after, otherValue, otherAfter, rfl, rfl, sameValue, sameAfter⟩ |
        ⟨final, otherFinal, rfl, rfl, sameFinal⟩
    · exact .andThen (resume_matches sameAfter) fun _ => .pure sameValue
    · exact .fail (rest_later sameRest sameFinal)

theorem arrowBody_steady (context : Context) : Steady lead (arrowBody descend context) :=
  field_matches (.andThen (isNext_matches _) fun _ =>
    .ite (blockOrObject_steady steady _ _ (steady _)) (steady _)) _

theorem arrowTail_matches
    (context : Context) {start otherStart : Place} {before otherBefore head otherHead : List Child}
    (sameStart : start.behind lead = otherStart)
    (sameBefore : childrenBehind lead before = otherBefore)
    (sameHead : childrenBehind lead head = otherHead) :
    Matches lead (childrenBehind lead) (arrowTail descend context start before head)
      (arrowTail descend context otherStart otherBefore otherHead) :=
  .bind (token_steady _) fun _ _ sameSign =>
    .bind (arrowBody_steady steady _) fun _ _ sameBody =>
      .pure (by simp [sameStart, sameBefore, sameHead, sameSign, sameBody])

/-! ## Parentheses -/

theorem parenthesized_steady (context : Context) : Steady lead (parenthesized descend context) := by
  refine .bind place_matches fun start otherStart sameStart =>
    .bind comments_matches fun before otherBefore sameBefore =>
    .bind (token_steady _) fun opening otherOpening sameOpening =>
    .bind (listed_matches (element_steady steady _) _ _) fun inside otherInside sameInside => ?_
  have sameChildren :
      childrenBehind lead (opening ++ inside) = (otherOpening ++ otherInside) := by
    simp [sameOpening, sameInside]
  generalize opening ++ inside = children at sameChildren ⊢
  generalize otherOpening ++ otherInside = others at sameChildren ⊢
  have sameItems : childrenBehind lead (itemsOf children) = (itemsOf others) := by
    rw [← childrenBehind_itemsOf, sameChildren]
  have sameSpreads := all_alike sameItems (fun item => !item.2.isA .spreadElement)
    (fun _ => by simp)
  have sameSettled := all_alike sameItems (fun item => isSettled item.2) (fun _ => by simp)
  dsimp only
  rw [isEmpty_alike sameItems, childrenJudged_alike hasLastComma_behind sameChildren,
    sameSpreads, sameSettled]
  refine .andThen (peek_matches _) fun mark => .andThen (isHere_matches _) fun isArrow => .ite ?_ ?_
  · rcases option_cases (toPatterns?_alike .element sameChildren) with
      ⟨missing, otherMissing⟩ | ⟨converted, otherConverted, found, otherFound, same⟩
    · simp only [missing, otherMissing]
      exact stop_matches _ _
    · simp only [found, otherFound]
      exact arrowTail_matches steady _ sameStart sameBefore (by simp [sameStart, same])
  · refine .ite (.pure ?_) (stop_matches _ _)
    have sameJoined :
        childrenBehind lead (joinItems children) = (joinItems others) := by
      rw [← joinItems_behind, sameChildren]
    simp [sameStart, sameBefore, sameJoined]

theorem condition_steady : Steady lead (condition descend) := by
  refine node_matches (inTurn_steady ?_) _
  simp [token_steady, steady]

theorem asyncOperand_steady (context : Context) : Steady lead (asyncOperand descend context) := by
  refine .andThen (beyondWord_matches _ _) fun beyond =>
    .ite (functionExpression_steady steady) ?_
  refine .bind place_matches fun start otherStart sameStart =>
    .bind comments_matches fun before otherBefore sameBefore =>
    .bind (word_steady _) fun name otherName sameName =>
    .andThen (peek_matches _) fun _ => .andThen here_matches fun chars => ?_
  refine .ite ?_ (.ite ?_ (.ite ?_ ?_))
  · exact arrowTail_matches steady _ sameStart sameBefore (by simp [sameName])
  · refine .bind (arguments_steady steady _) fun children others sameChildren => ?_
    obtain ⟨_, called, _, otherCalled, splits, otherSplits, _, sameCalled⟩ :=
      splitLast_cases sameChildren
    simp only [splits, otherSplits]
    rcases behind_cases sameCalled with ⟨spelling, rfl, rfl⟩ |
      ⟨kind, place, otherPlace, spelling, rfl, rfl, _⟩ |
      ⟨kind, place, otherPlace, inner, otherInner, rfl, rfl, samePlace, sameInner⟩
    · exact stop_matches _ _
    · exact stop_matches _ _
    · by_cases isArguments : kind = .arguments
      · subst isArguments
        refine .andThen (peek_matches _) fun _ => .andThen (isHere_matches _) fun isArrow =>
          .ite ?_ ?_
        · rw [childrenJudged_alike (hasGap_behind false) sameInner]
          refine .andThen (require_matches rfl _) fun _ => ?_
          rcases option_cases (toPatterns?_alike .element sameInner) with
            ⟨missing, otherMissing⟩ | ⟨converted, otherConverted, found, otherFound, same⟩
          · simp only [missing, otherMissing]
            exact stop_matches _ _
          · simp only [found, otherFound]
            exact arrowTail_matches steady _ sameStart sameBefore (by simp [samePlace, same])
        · have sameArray :
              (Tree.branch .array place inner).behind lead =
                .branch .array otherPlace otherInner := by
            simp [samePlace, sameInner]
          rw [judged_alike isSettled_behind sameArray]
          exact .ite (.pure (by simp [sameStart, samePlace, sameBefore, sameName, sameInner]))
            (stop_matches _ _)
      · simp [isArguments, stop_matches]
  · exact .bind (field_matches (word_steady _) _) fun _ _ sameParameter =>
      arrowTail_matches steady _ sameStart sameBefore (by simp [sameParameter])
  · exact .pure (by simp [sameBefore, sameName])

/-! ## What follows an operand -/

omit steady in
theorem memberName_steady : Steady lead memberName :=
  field_matches (.andThen (isNext_matches _) fun _ => .ite privateName_steady (word_steady _)) _

theorem subscript_steady :
    Steady lead (inTurn [token "[", field "index" (descend (.expressions .inner)), token "]"]) := by
  refine inTurn_steady ?_
  simp [token_steady, field_matches (steady _)]

theorem suffix_matches
    (context : Context) (allowed : Suffixes) {base other : Tree}
    (same : base.behind lead = other) (isNode : base.kind?.isSome = true) :
    Matches lead (Option.map (behind lead)) (suffix descend context allowed base)
      (suffix descend context allowed other) := by
  unfold suffix
  have sameStart := placeOf_alike same isNode
  have sameImport := judged_alike (isA_behind .importWord) same
  have sameSettled := judged_alike isSettled_behind same
  have samePrimary := judged_alike isPrimary_behind same
  simp only [sameImport, sameSettled, samePrimary]
  refine .andThen (peek_matches _) fun mark => .ite (.pure rfl) ?_
  refine .andThen here_matches fun chars => ?_
  split
  · refine .andThen (require_matches rfl _) fun _ =>
      .bind (field_matches (takeLeaf_steady _ _) _) fun _ _ sameChain =>
      .andThen (isNext_matches _) fun _ => .ite ?_ (.andThen (isNext_matches _) fun _ => .ite ?_ ?_)
    · exact .andThen (require_matches rfl _) fun _ =>
        .bind (field_matches (arguments_steady steady _) _) fun _ _ sameArguments =>
          .pure (by simp [same, sameStart, sameChain, sameArguments])
    · exact .andThen (require_matches rfl _) fun _ =>
        .bind (subscript_steady steady) fun _ _ sameIndex =>
          .pure (by simp [same, sameStart, sameChain, sameIndex])
    · exact .bind memberName_steady fun _ _ sameName =>
        .pure (by simp [same, sameStart, sameChain, sameName])
  · exact .andThen (require_matches rfl _) fun _ =>
      .bind (takeToken_steady _) fun _ _ samePoint =>
      .bind memberName_steady fun _ _ sameName =>
        .pure (by simp [same, sameStart, samePoint, sameName])
  · exact .ite (.pure rfl) <| .andThen (require_matches rfl _) fun _ =>
      .bind (subscript_steady steady) fun _ _ sameIndex =>
        .pure (by simp [same, sameStart, sameIndex])
  · exact .ite (.pure rfl) <| .andThen (require_matches rfl _) fun _ =>
      .bind (field_matches (arguments_steady steady _) _) fun _ _ sameArguments =>
        .pure (by simp [same, sameStart, sameArguments])
  · exact .ite (.pure rfl) <| .andThen (require_matches rfl _) fun _ =>
      .bind (field_matches (template_steady steady) _) fun _ _ sameTemplate =>
        .pure (by simp [same, sameStart, sameTemplate])
  · exact .ite (.pure rfl) <| .andThen (require_matches rfl _) fun _ =>
      .bind (field_matches (takeToken_steady _) _) fun _ _ sameOperator =>
        .pure (by simp [same, sameStart, sameOperator])
  · exact .ite (.pure rfl) <| .andThen (require_matches rfl _) fun _ =>
      .bind (field_matches (takeToken_steady _) _) fun _ _ sameOperator =>
        .pure (by simp [same, sameStart, sameOperator])
  · exact .pure rfl

theorem suffixes_matches
    (context : Context) (allowed : Suffixes) (fuel : Nat) {base other : Tree}
    (same : base.behind lead = other) (isNode : base.kind?.isSome = true) :
    Matches lead (behind lead) (suffixes descend context allowed fuel base)
      (suffixes descend context allowed fuel other) := by
  induction fuel generalizing base other with
  | zero =>
      exact .pure same
  | succ fuel inductionHypothesis =>
      refine .bind ((suffix_matches steady context allowed same isNode).and
        (suffix_ends allowed base)) fun found another together => ?_
      rcases option_cases together.1 with
        ⟨rfl, rfl⟩ | ⟨longer, otherLonger, rfl, rfl, sameLonger⟩
      · exact .pure same
      · exact inductionHypothesis sameLonger (together.2 longer rfl)

theorem withSuffixes_matches
    (context : Context) (allowed : Suffixes) {children others : List Child}
    (same : childrenBehind lead children = others) (ends : EndsInNode children) :
    Matches lead (childrenBehind lead) (withSuffixes descend context allowed children)
      (withSuffixes descend context allowed others) := by
  obtain ⟨before, base, otherBefore, otherBase, splits, otherSplits, sameBefore, sameBase⟩ :=
    splitLast_cases same
  have isNode := isNode_of_ends ends splits
  unfold withSuffixes
  simp only [splits, otherSplits]
  exact .bind (.bounded fun fuel => suffixes_matches steady context allowed fuel sameBase isNode)
    fun _ _ sameTree => .pure (by simp [sameBefore, sameTree])

theorem withAssignment_matches
    (context : Context) {children others : List Child}
    (same : childrenBehind lead children = others) (ends : EndsInNode children) :
    Matches lead (childrenBehind lead) (withAssignment descend context children)
      (withAssignment descend context others) := by
  obtain ⟨before, tree, otherBefore, otherTree, splits, otherSplits, sameBefore, sameTree⟩ :=
    splitLast_cases same
  have isNode := isNode_of_ends ends splits
  unfold withAssignment
  simp only [splits, otherSplits, judged_alike isAssignable_behind sameTree,
    judged_alike isUpdatable_behind sameTree]
  refine .andThen (peek_matches _) fun mark => .ite (.pure same) ?_
  refine .andThen here_matches fun chars => .ite ?_ ?_
  · rcases option_cases (toTarget?_alike sameTree) with
      ⟨missing, otherMissing⟩ | ⟨target, otherTarget, found, otherFound, sameTarget⟩
    · simp only [missing, otherMissing]
      exact stop_matches _ _
    · simp only [found, otherFound]
      exact .bind (takeToken_steady _) fun _ _ sameSign =>
        .bind (field_matches (steady _) _) fun _ _ sameValue =>
          .pure (by simp [sameBefore, sameTree, isNode, sameTarget, sameSign, sameValue])
  · split
    · refine .ite (.bind (field_matches (takeToken_steady _) _) fun _ _ sameOperator =>
        .bind (field_matches (steady _) _) fun _ _ sameValue => .pure ?_) (.pure same)
      simp [sameBefore, sameTree, isNode, sameOperator, sameValue]
    · exact .pure same

theorem withSuffixesAssignment_matches
    (context : Context) (allowed : Suffixes) {children others : List Child}
    (same : childrenBehind lead children = others) (ends : EndsInNode children) :
    Matches lead (childrenBehind lead)
      (withSuffixes descend context allowed children >>= withAssignment descend context)
      (withSuffixes descend context allowed others >>= withAssignment descend context) :=
  .bind ((withSuffixes_matches steady context allowed same ends).and
    (withSuffixes_ends allowed ends)) fun _ _ whole =>
      withAssignment_matches steady context whole.1 whole.2

/-! ## What stands before an operand -/

theorem unary_steady (context : Context) (length : Nat) :
    Steady lead (unary descend context length) := by
  refine node_matches (inTurn_steady ?_) _
  simp [field_matches (takeToken_steady _), field_matches (steady _)]

theorem yieldOperand_steady (context : Context) : Steady lead (yieldOperand descend context) := by
  unfold yieldOperand
  generalize beginsOperand = begins
  refine .bind (.and (node_matches ?_ _) (node_ends _ _)) fun children others together => ?_
  · refine .bind (takeToken_steady _) fun _ _ sameKeyword => ?_
    refine .andThen (peek_matches _) fun mark => ?_
    refine .andThen here_matches fun chars => .ite (.pure sameKeyword) ?_
    split
    · exact .pure sameKeyword
    · exact .bind (takeToken_steady _) fun _ _ sameStar => .bind (steady _) fun _ _ sameOperand =>
        .pure (by simp [sameKeyword, sameStar, sameOperand])
    · exact .ite (.bind (steady _) fun _ _ sameOperand =>
        .pure (by simp [sameKeyword, sameOperand])) (.pure sameKeyword)
  · obtain ⟨sameChildren, ends⟩ := together
    have goesOn :=
      withSuffixesAssignment_matches steady context ⟨true, true⟩ sameChildren ends
    obtain ⟨_, tree, _, otherTree, splits, otherSplits, _, sameTree⟩ :=
      splitLast_cases sameChildren
    simp only [splits, otherSplits]
    rcases behind_cases sameTree with ⟨spelling, rfl, rfl⟩ |
      ⟨kind, place, otherPlace, spelling, rfl, rfl, _⟩ |
      ⟨kind, place, otherPlace, inner, otherInner, rfl, rfl, samePlace, sameInner⟩
    · exact .pure sameChildren
    · exact .pure sameChildren
    · have sameLength := length_alike sameInner
      rcases inner with _ | ⟨first, _ | ⟨second, rest⟩⟩ <;>
        rcases otherInner with _ | ⟨otherFirst, _ | ⟨otherSecond, otherRest⟩⟩ <;>
          first
          | exact .pure sameChildren
          | exact goesOn
          | simp at sameLength

theorem newOperand_steady (context : Context) : Steady lead (newOperand descend context) := by
  refine .andThen (beyondWord_matches _ _) fun beyond => ?_
  obtain ⟨mark, chars⟩ := beyond
  refine .ite (node_matches (inTurn_steady ?_) _) (node_matches ?_ _)
  · simp [takeToken_steady, token_steady]
  · exact .bind (takeToken_steady _) fun _ _ sameKeyword =>
      .bind (field_matches (steady _) _) fun _ _ sameTarget =>
      .andThen (peek_matches _) fun _ => .andThen (isHere_matches _) fun _ =>
      .bind (onlyIf_matches (field_matches (arguments_steady steady _) _) _) fun _ _ sameCalled =>
        .pure (by simp [sameKeyword, sameTarget, sameCalled])

theorem privateIn_steady (context : Context) : Steady lead (privateIn descend context) := by
  refine node_matches ?_ _
  refine .bind (field_matches privateName_steady _) fun _ _ sameName =>
    .andThen (isNext_matches _) fun _ => .ite ?_ (stop_matches _ _)
  exact .bind (field_matches (takeToken_steady _) _) fun _ _ sameOperator =>
    .bind (field_matches (steady _) _) fun _ _ sameRight =>
      .pure (by simp [sameName, sameOperator, sameRight])

/-! ## Operands -/

theorem nameOperand_steady (context : Context) (kind : Kind) :
    Steady lead (nameOperand descend context kind) :=
  .bind place_matches fun _ _ sameStart => .bind comments_matches fun _ _ sameBefore =>
    .bind (word_steady _) fun _ _ sameName => .andThen (peek_matches _) fun _ =>
    .andThen (isHere_matches _) fun _ =>
      .ite (arrowTail_matches steady _ sameStart sameBefore (by simp [sameName]))
        (.pure (by simp [sameBefore, sameName]))

theorem wordOperand_steady (context : Context) (found : String) :
    Steady lead (wordOperand descend context found) := by
  unfold wordOperand
  split
  · exact functionExpression_steady steady
  · exact asyncOperand_steady steady context
  · exact classExpression_steady steady
  · exact node_matches (takeToken_steady _) _
  · exact word_steady _
  · exact word_steady _
  · exact word_steady _
  · exact word_steady _
  · exact word_steady _
  · exact word_steady _
  · exact nameOperand_steady steady context _

theorem primary_steady (context : Context) : Steady lead (primary descend context) := by
  unfold primary
  generalize Lexeme.number = number
  refine .andThen ahead_matches fun chars => ?_
  cases chars with
  | nil =>
      exact stop_matches _ _
  | cons c rest =>
      refine .ite (parenthesized_steady steady context) <| .ite (arrayLiteral_steady steady) <|
        .ite (objectLiteral_steady steady) <| .ite string_steady <| .ite (template_steady steady) <|
        .ite (.andThen (isNext_matches _) fun _ => .ite templateElement_steady (steady _)) <|
        .ite (classExpression_steady steady) <| .ite ?_ ?_
      · exact lexeme_steady .regex (Lexeme.regex (c :: rest))
      · dsimp only
        split
        · exact .andThen nextWord_matches fun _ => wordOperand_steady steady context _
        · exact takeLeaf_steady _ _

section Whole

variable (ends : ∀ goal, goal.isSingle = true → Yields EndsInNode (descend goal))

include ends

theorem constructed_steady (context : Context) : Steady lead (constructed descend context) := by
  refine .andThen nextWord_matches fun found => .andThen (require_matches rfl _) fun _ =>
    .andThen (beyondWord_matches _ _) fun beyond => .ite (newOperand_steady steady context) ?_
  refine .eitherThen ((word_steady _).and (word_ends _))
    ((primary_steady steady context).and (primary_ends (ends _ rfl)))
    fun first otherFirst together => ?_
  obtain ⟨sameFirst, firstEnds⟩ := together
  obtain ⟨before, base, otherBefore, otherBase, splits, otherSplits, sameBefore, sameBase⟩ :=
    splitLast_cases sameFirst
  have isNode := isNode_of_ends firstEnds splits
  simp only [splits, otherSplits, judged_alike isSettled_behind sameBase,
    judged_alike isUnfinished_behind sameBase]
  refine .andThen (require_matches rfl _) fun _ => .ite ?_ ?_
  · refine .bind ((suffix_matches steady context _ sameBase isNode).and (suffix_ends _ base))
      fun found other step => ?_
    rcases option_cases step.1 with ⟨rfl, rfl⟩ | ⟨longer, otherLonger, rfl, rfl, sameLonger⟩
    · -- Nothing follows a stop, so what would is never reached.
      exact .bind (stop_matches (fun _ _ => False) _) fun _ _ => False.elim
    · exact withSuffixes_matches steady context _ (by simp [sameBefore, sameLonger])
        ((endsInNode_snoc _ _ _).mpr (step.2 longer rfl))
  · exact withSuffixes_matches steady context _ sameFirst firstEnds

theorem operand_steady (updates : Bool) (context : Context) :
    Steady lead (operand descend updates context) := by
  refine .andThen ahead_matches fun chars => .andThen nextWord_matches fun found => ?_
  have updated : Steady lead
      (node .updateExpression (inTurn [field "operator" (takeToken 2),
        field "argument" (descend (.operand false context.operand))])) := by
    refine node_matches (inTurn_steady ?_) _
    simp [field_matches (takeToken_steady _), field_matches (steady _)]
  have updatedWhole := updated.and (node_ends _ _)
  split
  · exact .bind updatedWhole fun _ _ together =>
      withSuffixes_matches steady context _ together.1 together.2
  · exact .bind updatedWhole fun _ _ together =>
      withSuffixes_matches steady context _ together.1 together.2
  · exact unary_steady steady context _
  · exact unary_steady steady context _
  · exact unary_steady steady context _
  · exact unary_steady steady context _
  · exact privateIn_steady steady context
  · split
    · exact unary_steady steady context _
    · exact unary_steady steady context _
    · exact unary_steady steady context _
    · refine node_matches (inTurn_steady ?_) _
      simp [takeToken_steady, steady]
    · exact yieldOperand_steady steady context
    · exact .bind ((newOperand_steady steady context).and newOperand_ends) fun _ _ created =>
        withSuffixesAssignment_matches steady context _ created.1 created.2
    · refine .bind ((primary_steady steady context).and (primary_ends (ends _ rfl)))
        fun first otherFirst together => ?_
      obtain ⟨sameFirst, firstEnds⟩ := together
      rw [judged_alike isClosedArrow_behind (last_alike sameFirst)]
      refine .ite (.pure sameFirst) (.bind
        ((withSuffixes_matches steady context _ sameFirst firstEnds).and
          (withSuffixes_ends _ firstEnds)) fun whole otherWhole together => ?_)
      obtain ⟨sameWhole, wholeEnds⟩ := together
      rw [judged_alike (isA_behind .importWord) (last_alike sameWhole)]
      refine .andThen (require_matches rfl _) fun _ =>
        .bind (withAssignment_matches steady context sameWhole wholeEnds)
          fun result other sameResult => ?_
      rw [judged_alike isSettled_behind (last_alike sameResult)]
      exact .andThen (require_matches rfl _) fun _ => .pure sameResult

/-! ## Operators -/

omit ends in
theorem conditionalTail_steady (context : Context) :
    Steady lead (conditionalTail descend context) :=
  .bind (takeToken_steady _) fun _ _ sameQuestion =>
    .bind (field_matches (innerExpression_steady steady) _) fun _ _ sameConsequence =>
    .andThen (peek_matches _) fun _ => .bind (token_steady _) fun _ _ sameColon =>
    .bind (field_matches (steady _) _) fun _ _ sameAlternative =>
      .pure (by simp [sameQuestion, sameConsequence, sameColon, sameAlternative])

omit ends in
theorem operatorsAfter_matches
    (level : Nat) (context : Context) (fuel : Nat) {left other : Tree}
    (same : left.behind lead = other) (isNode : left.kind?.isSome = true) :
    Matches lead (behind lead) (operatorsAfter descend level context fuel left)
      (operatorsAfter descend level context fuel other) := by
  induction fuel generalizing left other with
  | zero =>
      exact .pure same
  | succ fuel inductionHypothesis =>
      have sameStart := placeOf_alike same isNode
      rw [operatorsAfter, operatorsAfter, judged_alike isSettled_behind same]
      refine .andThen (peek_matches _) fun mark => ?_
      cases mark with
      | unseen =>
          exact .pure same
      | semicolon =>
          exact .pure same
      | question =>
          exact .ite (.andThen (require_matches rfl _) fun _ =>
            .bind (conditionalTail_steady steady _) fun _ _ sameTail =>
              inductionHypothesis (by simp [same, sameStart, sameTail]) rfl) (.pure same)
      | token =>
          refine .andThen here_matches fun chars => ?_
          cases operatorAt? chars with
          | none =>
              exact .pure same
          | some operator =>
              exact .ite (.pure same) <| .andThen (require_matches rfl _) fun _ =>
                .bind (field_matches (takeToken_steady _) _) fun _ _ sameSign =>
                .bind (field_matches (steady _) _) fun _ _ sameRight =>
                  inductionHypothesis (by simp [same, sameStart, sameSign, sameRight]) rfl

theorem expression_steady (level : Nat) (context : Context) :
    Steady lead (expression descend level context) := by
  refine .bind ((steady _).and (ends _ rfl)) fun children others together => ?_
  obtain ⟨before, left, otherBefore, otherLeft, splits, otherSplits, sameBefore, sameLeft⟩ :=
    splitLast_cases together.1
  have isNode := isNode_of_ends together.2 splits
  simp only [splits, otherSplits]
  exact .bind (.bounded fun fuel =>
    operatorsAfter_matches steady level context fuel sameLeft isNode)
    fun _ _ sameTree => .pure (by simp [sameBefore, sameTree])

theorem expressions_steady (context : Context) : Steady lead (expressions descend context) := by
  refine .bind ((steady _).and (ends _ rfl)) fun first otherFirst together => ?_
  obtain ⟨sameFirst, firstEnds⟩ := together
  obtain ⟨before, tree, otherBefore, otherTree, splits, otherSplits, sameBefore, sameTree⟩ :=
    splitLast_cases sameFirst
  have isNode := isNode_of_ends firstEnds splits
  simp only [splits, otherSplits]
  refine .bind (repeated_matches (.andThen (peek_matches _) fun mark =>
    .andThen (isHere_matches _) fun _ => .ite ?_ (.pure rfl))) fun others further sameOthers => ?_
  · exact .bind (takeToken_steady _) fun _ _ sameComma => .bind (steady _) fun _ _ sameNext =>
      .pure (by simp [sameComma, sameNext])
  · rw [isEmpty_alike sameOthers]
    exact .ite (.pure sameFirst) (.pure (by simp [sameBefore, sameTree, isNode, sameOthers]))

end Whole

end Goals

end ShapeAudit.Source.Grammar
